import Switchboard.Mapping

/-!
Table plans: one cell for every identifier from the smallest of the mapping to its largest, so the
size of a table follows the range of the identifiers and not their number. An identifier is looked
up by its distance from the smallest one, after a test that keeps it inside the table. Slots are in
ascending order of their identifiers.
-/

namespace Switchboard

/-- A table over the identifiers from `lo` on. A cell holds the position of a slot. -/
structure TablePlan where
  lo : Identifier
  slots : Array Slot
  cells : Array (Option Nat)

structure Geometry where
  lo : Identifier
  hi : Identifier
  length : Nat
  gaps : Nat
deriving DecidableEq, Repr

def Geometry.text (geometry : Geometry) : String :=
  "table [" ++ geometry.lo.literal ++ ", " ++ geometry.hi.literal ++ "], " ++
    toString geometry.length ++ " slots, " ++ toString geometry.gaps ++ " empty"

namespace TablePlan

def sortedSlots (mapping : Mapping) : List Slot :=
  mapping.slots.mergeSort fun a b => a.identifier ≤ b.identifier

/-- The cells after some slots, the first of which stands at `start`, are put into theirs. -/
def place (lo : Identifier) (start : Nat) (cells : Array (Option Nat)) :
    List Slot → Array (Option Nat)
  | [] => cells
  | slot :: rest =>
    place lo (start + 1) (cells.setIfInBounds (slot.identifier - lo).toNat (some start)) rest

def span (lo hi : Identifier) : Nat :=
  hi.toNat - lo.toNat + 1

/-- The table of a mapping, which needs an entry and has to keep to a limit. -/
def ofMapping (mapping : Mapping) (limit : Nat) : Except Fault TablePlan :=
  let slots := sortedSlots mapping
  match slots.head?, slots.getLast? with
  | some first, some last =>
    let length := span first.identifier last.identifier
    if length ≤ limit then
      .ok {
        lo := first.identifier
        slots := slots.toArray
        cells := place first.identifier 0 (Array.replicate length none) slots }
    else .error (.tableTooLarge mapping.name length limit)
  | _, _ => .error (.emptyMapping mapping.name)

def length (plan : TablePlan) : Nat :=
  plan.cells.size

def hi (plan : TablePlan) : Identifier :=
  plan.lo + UInt32.ofNat (plan.length - 1)

def gaps (plan : TablePlan) : Nat :=
  plan.cells.countP (·.isNone)

def positions (plan : TablePlan) : List (Option Slot) :=
  plan.cells.toList.map fun cell => cell.bind (plan.slots[·]?)

def geometry (plan : TablePlan) : Geometry where
  lo := plan.lo
  hi := plan.hi
  length := plan.length
  gaps := plan.gaps

/-- Where the slot of an identifier stands. An identifier outside the range touches no cell. -/
def find? (plan : TablePlan) (identifier : Identifier) : Option Nat :=
  if identifier < plan.lo then none
  else
    let position := (identifier - plan.lo).toNat
    if h : position < plan.cells.size then plan.cells[position] else none

@[simp] theorem size_place (lo : Identifier) (start : Nat) (cells : Array (Option Nat))
    (slots : List Slot) : (place lo start cells slots).size = cells.size := by
  induction slots generalizing start cells with
  | nil => rfl
  | cons slot rest ih => simp [place, ih]

@[simp] theorem length_positions (plan : TablePlan) : plan.positions.length = plan.length := by
  simp [positions, length]

end TablePlan

end Switchboard
