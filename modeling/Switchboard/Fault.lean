import Switchboard.Disk.Cause
import Switchboard.Identifier
import Switchboard.Path

/-!
Everything that can be wrong with a run, as causes; the wording is in one function per type. A fault
that points into a mapping knows its line.
-/

namespace Switchboard

def Identifier.FieldFault.message : Identifier.FieldFault → String
  | notHexadecimal field => "identifier '" ++ field ++ "' is not hexadecimal"
  | tooWide field width => "identifier '" ++ field ++ "' does not fit in " ++ width.name

inductive LineFault
  | empty
  | fieldCount (found : Nat)
  | identifier (fault : Identifier.FieldFault)
  | handlerName (name : String)
  | missingMarker (expected : String)
deriving DecidableEq, Repr

def LineFault.message : LineFault → String
  | empty => "line is empty"
  | fieldCount found =>
    "expected `<identifier> <handler>`, found " ++ toString found ++ " field(s)"
  | identifier fault => fault.message
  | handlerName name => "handler name '" ++ name ++ "' is not a valid identifier"
  | missingMarker expected => "first line must contain the marker '" ++ expected ++ "'"

inductive PathFault
  | missing
  | notFile
  | notDirectory
deriving DecidableEq, Repr

def PathFault.message : PathFault → String
  | missing => "does not exist"
  | notFile => "is not a regular file"
  | notDirectory => "is not a directory"

inductive Fault
  | line (mapping : String) (line : Nat) (fault : LineFault)
  | emptyMapping (mapping : String)
  | duplicateIdentifier (mapping : String) (identifier : Identifier) (line firstLine : Nat)
  | slotCollision (mapping name : String) (line firstLine : Nat)
  | reservedSlot (mapping name : String) (line : Nat)
  | mappingName (name : String)
  | classCollision (className : String) (first second : Path)
  | path (path : Path) (fault : PathFault)
  | tableTooLarge (mapping : String) (length limit : Nat)
  | disk (action : Disk.Action) (path : Path) (cause : Disk.Cause)
deriving DecidableEq, Repr

namespace Fault

/-- The beginning of a message that points at a line. -/
def place (mapping : String) (line : Nat) : String :=
  mapping ++ ":" ++ toString line ++ ": "

def message : Fault → String
  | line mapping n fault => place mapping n ++ fault.message
  | emptyMapping mapping =>
    "mapping '" ++ mapping ++ "' has no entries, cannot build a sparse table"
  | duplicateIdentifier mapping identifier n first =>
    place mapping n ++ "identifier " ++ identifier.literal ++ " is already mapped on line " ++
      toString first
  | slotCollision mapping name n first =>
    place mapping n ++ "slot name '" ++ name ++ "' is already used on line " ++ toString first
  | reservedSlot mapping name n =>
    place mapping n ++ "slot name '" ++ name ++ "' is reserved in generated code"
  | mappingName name => "mapping name '" ++ name ++ "' cannot form a class name (use [A-Za-z0-9_])"
  | classCollision className first second =>
    "'" ++ first.text ++ "' and '" ++ second.text ++ "' both generate " ++ className
  | path p fault => "'" ++ p.text ++ "' " ++ fault.message
  | tableTooLarge mapping length limit =>
    "mapping '" ++ mapping ++ "' needs a sparse table of " ++ toString length ++
      " slots (limit is " ++ toString limit ++ ")"
  | disk action p cause =>
    "failed to " ++ action.name ++ " '" ++ p.text ++ "': " ++ cause.message

def line? : Fault → Option Nat
  | line _ n _ | duplicateIdentifier _ _ n _ | slotCollision _ _ n _ | reservedSlot _ _ n => some n
  | _ => none

end Fault

end Switchboard

/-! ### Results -/

namespace Except

variable {ε α β : Type} {result : Except ε α}

theorem toOption_eq_some_iff {result : Except ε α} {value : α} :
    result.toOption = some value ↔ result = .ok value := by
  cases result <;> simp [Except.toOption]

theorem map_eq_ok_iff {f : α → β} {value : β} :
    result.map f = .ok value ↔ ∃ found, result = .ok found ∧ f found = value := by
  cases result <;> simp [Except.map]

theorem map_eq_error_iff {f : α → β} {fault : ε} :
    result.map f = .error fault ↔ result = .error fault := by
  cases result <;> simp [Except.map]

theorem bind_eq_ok_iff {next : α → Except ε β} {value : β} :
    result >>= next = .ok value ↔ ∃ found, result = .ok found ∧ next found = .ok value := by
  cases result <;> simp [bind, Except.bind]

/-- One step after another fails where either of them does. -/
theorem bind_eq_error_iff {next : α → Except ε β} {fault : ε} :
    result >>= next = .error fault ↔
      result = .error fault ∨ ∃ value, result = .ok value ∧ next value = .error fault := by
  cases result <;> simp [bind, Except.bind]

/-- Steps for some values succeed if each of them does. -/
theorem mapM_eq_ok_iff {f : α → Except ε β} {list : List α} {values : List β} :
    list.mapM f = .ok values ↔ list.map f = values.map .ok := by
  induction list generalizing values with
  | nil => cases values <;> simp [pure, Except.pure]
  | cons a rest ih =>
    rw [List.mapM_cons, List.map_cons]
    cases hfirst : f a with
    | error fault => cases values <;> simp [bind, Except.bind]
    | ok first =>
      cases values with
      | nil => cases rest.mapM f <;> simp [bind, Except.bind, pure, Except.pure]
      | cons value others =>
        rw [List.map_cons, List.cons.injEq, ← ih]
        cases rest.mapM f <;> simp [bind, Except.bind, pure, Except.pure]

/-- They fail as one of them does. -/
theorem exists_of_mapM_eq_error {f : α → Except ε β} {list : List α} {fault : ε}
    (h : list.mapM f = .error fault) : ∃ a ∈ list, f a = .error fault := by
  induction list with
  | nil => cases h
  | cons a rest ih =>
    rw [List.mapM_cons] at h
    rcases bind_eq_error_iff.1 h with hfirst | ⟨first, -, hrest⟩
    · exact ⟨a, List.mem_cons_self, hfirst⟩
    · rcases bind_eq_error_iff.1 hrest with hrest | ⟨others, -, hpure⟩
      · obtain ⟨b, hb, hfault⟩ := ih hrest
        exact ⟨b, List.mem_cons_of_mem _ hb, hfault⟩
      · cases hpure

end Except
