import Switchboard.Plan.Chain
import Switchboard.Plan.Switch
import Switchboard.Plan.Table
import Switchboard.Strategy

/-!
Lookup plans: how a strategy lays a mapping out, independent of any text. A plan owns the slots it
dispatches to, in the order in which they are declared and dumped, and answers lookups itself. Only
a table can fail to be laid out.
-/

namespace Switchboard

inductive Plan
  | switch (plan : SwitchPlan)
  | chain (plan : ChainPlan)
  | array (plan : TablePlan)

namespace Plan

def ofMapping (strategy : Strategy) (mapping : Mapping) (config : Config) : Except Fault Plan :=
  match strategy with
  | .switch => .ok (switch (SwitchPlan.ofMapping mapping))
  | .chain => .ok (chain (ChainPlan.ofMapping mapping))
  | .array => (TablePlan.ofMapping mapping config.tableLimit).map array

def strategy : Plan → Strategy
  | switch _ => .switch
  | chain _ => .chain
  | array _ => .array

/-- The slots in the order in which they are declared and dumped: file order for a switch and a
chain, ascending order of the identifiers for a table. -/
def slots : Plan → Array Slot
  | switch plan => plan.cases
  | chain plan => plan.tests
  | array plan => plan.slots

/-- The position, among the slots, of the one that an identifier dispatches to. -/
def find? (plan : Plan) (identifier : Identifier) : Option Nat :=
  match plan with
  | switch plan => plan.find? identifier
  | chain plan => plan.find? identifier
  | array plan => plan.find? identifier

def lookup (plan : Plan) (identifier : Identifier) : Option Slot :=
  (plan.find? identifier).bind (plan.slots[·]?)

def geometry? : Plan → Option Geometry
  | switch _ | chain _ => none
  | array plan => some plan.geometry

end Plan

end Switchboard
