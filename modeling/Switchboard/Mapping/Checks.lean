import Std.Data.HashMap
import Switchboard.Fault
import Switchboard.Slot

/-!
Checks on a whole list of entries. Both walk the list once, from the front, with a table of the keys
met so far, and stop at the first entry that is refused or repeats a key. The key is the identifier
in one check and the slot name in the other, and only slot names can be refused outright.
-/

namespace Switchboard.Mapping

variable {κ : Type} [BEq κ] [Hashable κ]

/-- Walks over the entries. `seen` holds the line of every key met so far. -/
def checkKeys (key : Entry → κ) (refuse : Entry → Option Fault) (clash : Entry → Nat → Fault)
    (seen : Std.HashMap κ Nat) : List Entry → Except Fault Unit
  | [] => .ok ()
  | entry :: rest =>
    match refuse entry, seen[key entry]? with
    | some fault, _ => .error fault
    | none, some firstLine => .error (clash entry firstLine)
    | none, none => checkKeys key refuse clash (seen.insert (key entry) entry.line) rest

def checkIdentifiers (mapping : String) (entries : List Entry) : Except Fault Unit :=
  checkKeys (·.identifier) (fun _ => none)
    (fun entry firstLine => .duplicateIdentifier mapping entry.identifier entry.line firstLine)
    ∅ entries

def checkSlotNames (mapping : String) (entries : List Entry) : Except Fault Unit :=
  checkKeys SlotName.ofEntry
    (fun entry =>
      let name := SlotName.ofEntry entry
      if name.isReserved then some (.reservedSlot mapping name.text entry.line) else none)
    (fun entry firstLine =>
      .slotCollision mapping (SlotName.ofEntry entry).text entry.line firstLine)
    ∅ entries

/-- Entries that pass are not refused, have no key met before, and have no key in common. -/
theorem checkKeys_eq_ok [LawfulBEq κ] {key : Entry → κ} {refuse : Entry → Option Fault}
    {clash : Entry → Nat → Fault} {seen : Std.HashMap κ Nat} {entries : List Entry}
    (h : checkKeys key refuse clash seen entries = .ok ()) :
    (∀ e ∈ entries, refuse e = none ∧ seen[key e]? = none) ∧ (entries.map key).Nodup := by
  induction entries generalizing seen with
  | nil => simp
  | cons entry rest ih =>
    simp only [checkKeys] at h
    split at h
    · cases h
    · cases h
    · next hrefuse hseen =>
      obtain ⟨hall, hnodup⟩ := ih h
      have hkey : ∀ e ∈ rest, key e ≠ key entry ∧ seen[key e]? = none := by
        intro e he
        have := (hall e he).2
        rw [Std.HashMap.getElem?_insert] at this
        split at this
        · cases this
        · next hne => exact ⟨fun heq => hne (by simp [heq]), this⟩
      constructor
      · intro e he
        rcases List.mem_cons.1 he with rfl | he
        · exact ⟨hrefuse, hseen⟩
        · exact ⟨(hall e he).1, (hkey e he).2⟩
      · rw [List.map_cons, List.nodup_cons]
        refine ⟨?_, hnodup⟩
        intro hmem
        obtain ⟨e, he, heq⟩ := List.mem_map.1 hmem
        exact (hkey e he).1 heq

theorem checkIdentifiers_eq_ok {mapping : String} {entries : List Entry}
    (h : checkIdentifiers mapping entries = .ok ()) : (entries.map (·.identifier)).Nodup :=
  (checkKeys_eq_ok h).2

theorem checkSlotNames_eq_ok {mapping : String} {entries : List Entry}
    (h : checkSlotNames mapping entries = .ok ()) :
    (∀ e ∈ entries, (SlotName.ofEntry e).isReserved = false) ∧
      (entries.map SlotName.ofEntry).Nodup := by
  obtain ⟨hall, hnodup⟩ := checkKeys_eq_ok h
  exact ⟨fun e he => by simpa using (hall e he).1, hnodup⟩

end Switchboard.Mapping
