import Switchboard.Text.Uppercase

/-!
The three ways a dispatcher can find a handler, and the classes that are generated for them.
-/

namespace Switchboard

inductive Strategy
  /-- One case per entry, in file order. -/
  | switch
  /-- A chain of comparisons in file order, of which the first success wins. -/
  | chain
  /-- A table over the range of identifiers. -/
  | array
deriving DecidableEq, Repr

namespace Strategy

/-- Every strategy, in the order in which all of them are generated. -/
def all : List Strategy := [chain, switch, array]

/-- The part of a class name that tells the strategy. -/
def label : Strategy → String
  | switch => "Switch"
  | chain => "If"
  | array => "Array"

def name : Strategy → String
  | switch => "switch"
  | chain => "if"
  | array => "array"

/-- The strategy with the given name; `chain` is a second name of `if`. -/
def ofName? : String → Option Strategy
  | "switch" => some switch
  | "if" | "chain" => some chain
  | "array" => some array
  | _ => none

def classStem : String := "Generated"

def className (strategy : Strategy) (mapping : String) : String :=
  classStem ++ strategy.label ++ Text.capitalize mapping

theorem ofName?_name (strategy : Strategy) : ofName? strategy.name = some strategy := by
  cases strategy <;> rfl

theorem mem_all (strategy : Strategy) : strategy ∈ all := by
  cases strategy <;> simp [all]

end Strategy

end Switchboard
