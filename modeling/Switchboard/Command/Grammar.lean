import Switchboard.Command.Signature
import Switchboard.Fault
import Switchboard.Strategy

/-!
The commands and their arguments. Every command that reads mappings accepts all flags of generation,
so that one set of flags can be handed to each of them; those it does not use are hidden.
-/

namespace Switchboard.Command

/-! ### Values -/

/-- An indentation that indents. -/
def readIndent (value : String) : Except String Indent :=
  match Indent.ofName? value with
  | none | some (.spaces 0) => .error "expected `tab` or a number of spaces (1-255)"
  | some indent => .ok indent

/-- An identifier of any width. -/
def readIdentifier (value : String) : Except String Identifier :=
  match Identifier.read .u32 value with
  | .ok identifier => .ok identifier
  | .error fault => .error fault.message

/-! ### Arguments -/

namespace Operand

def mapping : Operand where
  id := .mapping
  kind := .path

def directory : Operand where
  id := .directory
  kind := .path
  required := false

def strategy : Operand where
  id := .strategy
  kind := .oneOf ["if", "switch", "array"]

def identifiers : Operand where
  id := .identifiers
  kind := .own readIdentifier
  several := true

end Operand

namespace Flag

def width : Flag where
  id := .width
  long := "width"
  kind := .oneOf ["u8", "u16", "u32"]
  standard? := some "u16"

def marker : Flag where
  id := .marker
  long := "marker"
  kind := .text

def outRoot : Flag where
  id := .outRoot
  long := "out-dir"
  short? := some 'o'
  kind := .path
  standard? := some "."

def indent : Flag where
  id := .indent
  long := "indent"
  kind := .own readIndent
  standard? := some "tab"

def tableLimit : Flag where
  id := .tableLimit
  long := "max-table-len"
  kind := .atLeast 1

def color : Flag where
  id := .color
  long := "color"
  kind := .oneOf ["auto", "always", "never"]
  standard? := some "auto"

/-- How mappings are read. -/
def reading : List Flag := [width, marker]

/-- What is emitted, and where. -/
def output : List Flag := [outRoot, indent, tableLimit]

end Flag

def Counter.verbose : Counter where
  id := .verbose
  short := 'v'

/-! ### Commands -/

/-- What a command does. -/
inductive Verb
  /-- Generates one strategy for one mapping. -/
  | one (strategy : Strategy)
  /-- Generates every strategy for every mapping in a directory. -/
  | all
  /-- Removes generated units. -/
  | clean
  /-- Checks a mapping. -/
  | check
  /-- Prints the units of one strategy. -/
  | dump
  /-- Looks identifiers up. -/
  | resolve
deriving DecidableEq, Repr

namespace Verb

def every : List Verb :=
  [one .chain, one .switch, one .array, all, clean, check, dump, resolve]

def name : Verb → String
  | one strategy => strategy.name
  | all => "all"
  | clean => "clean"
  | check => "check"
  | dump => "dump"
  | resolve => "resolve"

def ofName? (name : String) : Option Verb :=
  every.find? (·.name == name)

theorem ofName?_name (verb : Verb) : ofName? verb.name = some verb := by
  rcases verb with ⟨_ | _ | _⟩ | _ | _ | _ | _ | _ <;> rfl

def operands : Verb → List Operand
  | one _ | check => [.mapping]
  | all => [.directory]
  | clean => []
  | dump => [.strategy, .mapping]
  | resolve => [.strategy, .mapping, .identifiers]

def flags : Verb → List Flag
  | one _ | all | check | dump | resolve => Flag.reading ++ Flag.output ++ [.color]
  | clean => [.outRoot, .color]

def counters : Verb → List Counter
  | one _ | all | clean | check => [.verbose]
  | dump | resolve => []

/-- The flags that a command accepts and does not use. -/
def idleFlags : Verb → List ArgumentId
  | one _ | all | clean => []
  | check => [.outRoot, .indent, .tableLimit]
  | dump => [.outRoot]
  | resolve => [.outRoot, .indent]

def signature (verb : Verb) : Signature where
  name := verb.name
  operands := verb.operands
  flags := verb.flags
  counters := verb.counters
  hidden := verb.idleFlags

end Verb

def signatures : List Signature :=
  Verb.every.map Verb.signature

end Switchboard.Command
