import Switchboard.Identifier
import Switchboard.Text.Decimal

/-!
What a generation run is configured with: how mappings are read (width and marker), how long a table
may get, how generated lines are indented, and the vocabulary of the generated language.
-/

namespace Switchboard

inductive Indent
  | tab
  | spaces (count : Nat)
deriving DecidableEq, Repr

namespace Indent

instance : Inhabited Indent := ⟨tab⟩

def unit : Indent → String
  | tab => "\t"
  | spaces count => String.ofList (List.replicate count ' ')

def maxSpaces : Nat := 255

/-- The indentation with the given name: `tab`, or a number of spaces. -/
def ofName? (name : String) : Option Indent :=
  if name = "tab" then some tab else (Text.decimal maxSpaces name).toOption.map spaces

end Indent

/-- The vocabulary of the generated language. -/
structure Target where
  /-- The class every generated dispatcher derives from. -/
  baseClass : String
  /-- What `lookup` returns a pointer to. -/
  handlerType : String
  /-- The type of the parameter of `lookup`. -/
  identifierType : String
  /-- The method that writes the state of every slot. -/
  stateMethod : String
  null : String
  /-- The directory, below the output roots, of generated units. -/
  includePrefix : String
  /-- The headers every interface unit includes, in order. -/
  includes : List String
deriving DecidableEq, Repr

def Target.standard : Target where
  baseClass := "IMeta"
  handlerType := "IAnalyzer"
  identifierType := "identifier_t"
  stateMethod := "stringifyAnalyzersState"
  null := "nullptr"
  includePrefix := "dispatchers/metaprogramming"
  includes := ["analyzers/All.h", "dispatchers/metaprogramming/IMeta.h"]

instance : Inhabited Target := ⟨Target.standard⟩

/-- The longest table that may be emitted when no other limit is given. -/
def standardTableLimit : Nat := 1 <<< 24

structure Config where
  width : Width := .u16
  indent : Indent := .tab
  /-- A text the first line of every mapping has to contain. -/
  marker : Option String := none
  tableLimit : Nat := standardTableLimit
  target : Target := Target.standard
deriving DecidableEq, Repr

instance : Inhabited Config := ⟨{}⟩

end Switchboard
