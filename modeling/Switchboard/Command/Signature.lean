import Switchboard.Config
import Switchboard.Path

/-!
What a reader of command lines is told and what it hands back. A program describes the arguments of
its commands: how each of them is given and which texts are values of it. How a command line is read
by such a description is not decided here. An `Engine` does that, and the values it has found are
asked for by the names of the arguments.
-/

namespace Switchboard.Command

/-! ### Values -/

inductive ValueType
  | text
  | path
  | number
  | indent
  | identifier
  /-- The type of what takes no value. -/
  | none
deriving DecidableEq, Repr

abbrev ValueType.Carrier : ValueType → Type
  | text => String
  | path => Path
  | number => Nat
  | indent => Indent
  | identifier => Identifier
  | none => Empty

/-- Which texts are values. -/
inductive ValueKind : ValueType → Type
  | text : ValueKind .text
  /-- A path, which is never empty. -/
  | path : ValueKind .path
  | oneOf (names : List String) : ValueKind .text
  /-- A decimal number of 64 bits that is not less than another. -/
  | atLeast (least : Nat) : ValueKind .number
  /-- A text that the program reads itself. What it refuses it explains. -/
  | own {type : ValueType} (read : String → Except String type.Carrier) : ValueKind type

/-- What an argument is asked for by. -/
inductive ArgumentId
  | mapping
  | directory
  | strategy
  | identifiers
  | width
  | marker
  | outRoot
  | indent
  | tableLimit
  | color
  | verbose
deriving DecidableEq, Repr

abbrev ArgumentId.type : ArgumentId → ValueType
  | mapping | directory | outRoot => .path
  | strategy | width | marker | color => .text
  | identifiers => .identifier
  | indent => .indent
  | tableLimit => .number
  | verbose => .none

abbrev ArgumentId.Value (id : ArgumentId) : Type :=
  id.type.Carrier

/-! ### Signatures -/

/-- An argument that is given by a text in its turn. -/
structure Operand where
  id : ArgumentId
  kind : ValueKind id.type
  required : Bool := true
  /-- Whether all texts from its turn on are values of it. -/
  several : Bool := false

/-- An argument that is given by name, with a value. -/
structure Flag where
  id : ArgumentId
  long : String
  short? : Option Char := none
  kind : ValueKind id.type
  /-- The text that stands for a value that is not given. -/
  standard? : Option String := none

/-- An argument that is given by a letter, and counted. -/
structure Counter where
  id : ArgumentId
  short : Char

/-- A command and its arguments. -/
structure Signature where
  name : String
  operands : List Operand := []
  flags : List Flag := []
  counters : List Counter := []
  /-- The flags that help passes over. -/
  hidden : List ArgumentId := []

/-! ### Engines -/

/-- The values that have been found, in their order. -/
@[ext] structure Matches where
  values : (id : ArgumentId) → List id.Value
  counts : ArgumentId → Nat

namespace Matches

def none : Matches where
  values _ := []
  counts _ := 0

def set (found : Matches) (id : ArgumentId) (values : List id.Value) : Matches where
  values other := if h : id = other then h ▸ values else found.values other
  counts := found.counts

/-- The most that is counted. -/
def countBound : Nat := 255

def count (found : Matches) (id : ArgumentId) : Matches where
  values := found.values
  counts other := if id = other then min (found.counts id + 1) countBound else found.counts other

/-- The value of an argument that has at most one. -/
def one? (found : Matches) (id : ArgumentId) : Option id.Value :=
  (found.values id).head?

variable (found : Matches) {id other : ArgumentId}

@[simp] theorem values_set_self (values : List id.Value) : (found.set id values).values id = values := by
  simp [set]

theorem values_set_of_ne (h : id ≠ other) (values : List id.Value) :
    (found.set id values).values other = found.values other := by
  simp [set, h]

@[simp] theorem values_count (id : ArgumentId) : (found.count id).values = found.values := rfl

theorem count_comm (id other : ArgumentId) :
    (found.count id).count other = (found.count other).count id := by
  refine Matches.ext rfl (funext fun another => ?_)
  by_cases hid : id = another <;> by_cases hother : other = another <;> simp_all [count]

theorem count_set (values : List id.Value) (other : ArgumentId) :
    (found.set id values).count other = (found.count other).set id values := rfl

@[simp] theorem set_set (values values' : List id.Value) :
    (found.set id values).set id values' = found.set id values' := by
  refine Matches.ext (funext fun another => ?_) rfl
  by_cases hid : id = another <;> simp [set, hid]

theorem set_values (id : ArgumentId) : found.set id (found.values id) = found := by
  refine Matches.ext (funext fun another => ?_) rfl
  by_cases hid : id = another
  · subst hid
    simp
  · simp [set, hid]

theorem set_comm (h : id ≠ other) (values : List id.Value) (values' : List other.Value) :
    (found.set id values).set other values' = (found.set other values').set id values := by
  refine Matches.ext (funext fun another => ?_) rfl
  by_cases hid : id = another
  · subst hid
    simp [set, h.symm]
  · simp [set, hid]

end Matches

/-- Why a command line is not read. -/
inductive UsageFault
  | help
  | noCommand
  | unknownCommand
  | unknownArgument
  /-- A value is missing, empty or not one of a few. -/
  | invalidValue
  /-- A value is refused with an explanation. -/
  | refusedValue (reason : String)
  | repeated
  | missingArgument
  /-- A value is given to a flag that has none. -/
  | surplusValue
deriving DecidableEq, Repr

/-- Who reads command lines for a program: the command that is given, by its name, and the values of
its arguments. -/
abbrev Engine : Type :=
  List Signature → List String → Except UsageFault (String × Matches)

end Switchboard.Command
