import Switchboard.Mapping.Checks
import Switchboard.Mapping.Source

/-!
Mappings from identifiers to handlers. A mapping has passed every check an emitter relies on: its
name can end a class name, no identifier and no slot name occurs twice, and no slot name is a word
the generated language keeps. The checks run in this order, and the text is read between the first
and the second of them, whatever lines are at fault.
-/

namespace Switchboard

structure Mapping where
  name : String
  entries : List Entry
  name_isWordTail : Text.isWordTail name
  nodup_identifiers : (entries.map (·.identifier)).Nodup
  nodup_slotNames : (entries.map SlotName.ofEntry).Nodup
  not_reserved : ∀ e ∈ entries, (SlotName.ofEntry e).isReserved = false
deriving DecidableEq

namespace Mapping

/-- The mapping with the given name and entries, if they pass the checks. -/
def ofEntries (name : String) (entries : List Entry) : Except Fault Mapping :=
  if hname : Text.isWordTail name then
    match hidentifiers : checkIdentifiers name entries with
    | .error fault => .error fault
    | .ok () =>
      match hnames : checkSlotNames name entries with
      | .error fault => .error fault
      | .ok () => .ok {
          name, entries
          name_isWordTail := hname
          nodup_identifiers := checkIdentifiers_eq_ok hidentifiers
          nodup_slotNames := (checkSlotNames_eq_ok hnames).2
          not_reserved := (checkSlotNames_eq_ok hnames).1 }
  else .error (.mappingName name)

def ofSource (name source : String) (config : Config) : Except Fault Mapping :=
  if Text.isWordTail name then
    match readEntries name source config with
    | .error fault => .error fault
    | .ok entries => ofEntries name entries
  else .error (.mappingName name)

def size (mapping : Mapping) : Nat :=
  mapping.entries.length

def isEmpty (mapping : Mapping) : Bool :=
  mapping.entries.isEmpty

def slots (mapping : Mapping) : List Slot :=
  mapping.entries.map Slot.ofEntry

/-- The name of the mapping kept at a path: the file name without its extension. -/
def nameOfPath (path : Path) : String :=
  path.stem?.getD ""

theorem ofEntries_eq_ok {name : String} {entries : List Entry} {mapping : Mapping}
    (h : ofEntries name entries = .ok mapping) : mapping.name = name ∧ mapping.entries = entries := by
  unfold ofEntries at h
  split at h
  · split at h
    · cases h
    · split at h
      · cases h
      · cases h; exact ⟨rfl, rfl⟩
  · cases h

end Mapping

end Switchboard
