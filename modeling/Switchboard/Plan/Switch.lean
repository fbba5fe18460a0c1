import Std.Data.HashMap
import Switchboard.Mapping

/-!
Switch plans: the cases in file order, found through a hash index.
-/

namespace Switchboard

/-- The cases of a switch, and where the case of each identifier stands. -/
structure SwitchPlan where
  cases : Array Slot
  index : Std.HashMap Identifier Nat

namespace SwitchPlan

/-- The index of some slots, the first of which stands at `start`; a later slot wins. -/
def indexFrom (start : Nat) (index : Std.HashMap Identifier Nat) :
    List Slot → Std.HashMap Identifier Nat
  | [] => index
  | slot :: rest => indexFrom (start + 1) (index.insert slot.identifier start) rest

def ofMapping (mapping : Mapping) : SwitchPlan where
  cases := mapping.slots.toArray
  index := indexFrom 0 ∅ mapping.slots

def find? (plan : SwitchPlan) (identifier : Identifier) : Option Nat :=
  plan.index[identifier]?

end SwitchPlan

end Switchboard
