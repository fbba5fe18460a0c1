import Mathlib.Data.List.Nodup
import Switchboard.Mapping

/-!
Mappings are what the checks accept. The type `Mapping` carries what the checks have established, so
every mapping passes them again, and a mapping never has two entries under one identifier.
-/

namespace Switchboard.Mapping

variable {κ : Type} [BEq κ] [Hashable κ] [LawfulBEq κ]

/-- The walk over the entries accepts exactly those that are not refused, whose keys have not been
met before, and that have no key in common. -/
theorem checkKeys_eq_ok_iff {key : Entry → κ} {refuse : Entry → Option Fault}
    {clash : Entry → Nat → Fault} {seen : Std.HashMap κ Nat} {entries : List Entry} :
    checkKeys key refuse clash seen entries = .ok () ↔
      (∀ e ∈ entries, refuse e = none ∧ seen[key e]? = none) ∧ (entries.map key).Nodup := by
  refine ⟨checkKeys_eq_ok, ?_⟩
  induction entries generalizing seen with
  | nil => exact fun _ => rfl
  | cons entry rest ih =>
      rintro ⟨hall, hnodup⟩
      rw [List.map_cons, List.nodup_cons] at hnodup
      obtain ⟨hrefuse, hseen⟩ := hall entry List.mem_cons_self
      simp only [checkKeys, hrefuse, hseen]
      -- The first key is met from here on, so none of the keys behind may be equal to it.
      apply ih
      refine ⟨fun e he => ?_, hnodup.2⟩
      obtain ⟨hrefuse', hseen'⟩ := hall e (List.mem_cons_of_mem _ he)
      have hne : key entry ≠ key e := by
        intro heq
        exact hnodup.1 (heq ▸ List.mem_map_of_mem he)
      refine ⟨hrefuse', ?_⟩
      rw [Std.HashMap.getElem?_insert]
      simp [hne, hseen']

theorem checkIdentifiers_eq_ok_iff {mapping : String} {entries : List Entry} :
    checkIdentifiers mapping entries = .ok () ↔ (entries.map (·.identifier)).Nodup := by
  simp [checkIdentifiers, checkKeys_eq_ok_iff]

theorem checkSlotNames_eq_ok_iff {mapping : String} {entries : List Entry} :
    checkSlotNames mapping entries = .ok () ↔
      (∀ e ∈ entries, (SlotName.ofEntry e).isReserved = false) ∧
        (entries.map SlotName.ofEntry).Nodup := by
  simp [checkSlotNames, checkKeys_eq_ok_iff]

/-- A mapping passes the checks it has passed before. -/
theorem ofEntries_self (mapping : Mapping) :
    ofEntries mapping.name mapping.entries = .ok mapping := by
  have hidentifiers : checkIdentifiers mapping.name mapping.entries = .ok () :=
    checkIdentifiers_eq_ok_iff.2 mapping.nodup_identifiers
  have hnames : checkSlotNames mapping.name mapping.entries = .ok () :=
    checkSlotNames_eq_ok_iff.2 ⟨mapping.not_reserved, mapping.nodup_slotNames⟩
  rw [ofEntries, dif_pos mapping.name_isWordTail]
  split
  · next h => rw [hidentifiers] at h; cases h
  · split
    · next h => rw [hnames] at h; cases h
    · rfl

/-- An identifier belongs to at most one entry. -/
theorem eq_of_identifier_eq (mapping : Mapping) {e e' : Entry} (he : e ∈ mapping.entries)
    (he' : e' ∈ mapping.entries) (h : e.identifier = e'.identifier) : e = e' :=
  List.inj_on_of_nodup_map mapping.nodup_identifiers he he' h

/-- Three protocols out of order, with gaps between their identifiers. -/
def ipProtocols : Mapping where
  name := "ip"
  entries := [⟨6, "TCPAnalyzer", 2⟩, ⟨0x11, "UDPAnalyzer", 3⟩, ⟨1, "ICMPAnalyzer", 4⟩]
  name_isWordTail := by decide
  nodup_identifiers := by decide
  nodup_slotNames := by decide
  not_reserved := by decide

end Switchboard.Mapping
