import Switchboard.Mapping

/-!
Chain plans: comparisons in file order, the first of which that succeeds wins.
-/

namespace Switchboard

structure ChainPlan where
  tests : Array Slot

namespace ChainPlan

def ofMapping (mapping : Mapping) : ChainPlan where
  tests := mapping.slots.toArray

/-- Where the first comparison stands that an identifier passes. -/
def find? (plan : ChainPlan) (identifier : Identifier) : Option Nat :=
  plan.tests.findIdx? (·.identifier == identifier)

end ChainPlan

end Switchboard
