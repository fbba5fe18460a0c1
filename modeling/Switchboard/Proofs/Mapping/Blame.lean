import Mathlib.Data.List.Induction
import Switchboard.Proofs.Mapping.Accepted

/-!
Whom a check blames. A check walks over the entries and stops at the first one that is refused or has
the key of an entry before it. What it has passed by then is known without the walk: none of these
entries is refused, and no two of them have one key. So the entry that is blamed, and the earlier
entry that it clashes with, are told by their places in the list alone.

The table of the walk holds the line of every entry that was passed (`Holds`). Since their keys are
pairwise different, it does not matter that a table forgets the first line of a key that comes twice.
-/

namespace Switchboard.Mapping

variable {κ : Type} {key : Entry → κ} {refuse : Entry → Option Fault}
  {clash : Entry → Nat → Fault} {before entries : List Entry} {entry : Entry} {fault : Fault}

/-! ### Passing entries -/

/-- Nothing is wrong with the entries: none is refused, and no two of them have one key. -/
def Passes (key : Entry → κ) (refuse : Entry → Option Fault) (entries : List Entry) : Prop :=
  (∀ e ∈ entries, refuse e = none) ∧ (entries.map key).Nodup

/-- What is wrong with an entry that stands behind others. Being refused goes before a clash. -/
def Blames (key : Entry → κ) (refuse : Entry → Option Fault) (clash : Entry → Nat → Fault)
    (before : List Entry) (entry : Entry) (fault : Fault) : Prop :=
  refuse entry = some fault ∨
    refuse entry = none ∧ ∃ first ∈ before, key first = key entry ∧ fault = clash entry first.line

theorem Passes.nil : Passes key refuse [] :=
  ⟨by simp, by simp⟩

theorem passes_concat_iff : Passes key refuse (before ++ [entry]) ↔
    Passes key refuse before ∧ refuse entry = none ∧ ∀ e ∈ before, key e ≠ key entry := by
  have hnodup : ((before ++ [entry]).map key).Nodup ↔
      (before.map key).Nodup ∧ ∀ e ∈ before, key e ≠ key entry := by
    rw [List.map_append, List.nodup_append]
    simp
  have hrefuse : (∀ e ∈ before ++ [entry], refuse e = none) ↔
      (∀ e ∈ before, refuse e = none) ∧ refuse entry = none := by
    simp [or_imp, forall_and]
  rw [Passes, hnodup, hrefuse, Passes]
  tauto

theorem Passes.of_append {after : List Entry} (h : Passes key refuse (before ++ after)) :
    Passes key refuse before := by
  refine ⟨fun e he => h.1 e (List.mem_append_left after he), ?_⟩
  have hnodup := h.2
  rw [List.map_append] at hnodup
  exact hnodup.of_append_left

/-- The entry behind entries that pass either passes too or is to blame. -/
theorem Passes.concat_or_blames (h : Passes key refuse before) (clash : Entry → Nat → Fault)
    (entry : Entry) :
    Passes key refuse (before ++ [entry]) ∨ ∃ fault, Blames key refuse clash before entry fault := by
  cases hrefuse : refuse entry with
  | some fault => exact .inr ⟨fault, .inl hrefuse⟩
  | none =>
      by_cases hkeys : ∀ e ∈ before, key e ≠ key entry
      · exact .inl (passes_concat_iff.2 ⟨h, hrefuse, hkeys⟩)
      · push Not at hkeys
        obtain ⟨first, hfirst, hkey⟩ := hkeys
        exact .inr ⟨_, .inr ⟨hrefuse, first, hfirst, hkey, rfl⟩⟩

/-- Entries that do not pass have a first one that is to blame. -/
theorem passes_or_first_blamed (key : Entry → κ) (refuse : Entry → Option Fault)
    (clash : Entry → Nat → Fault) (entries : List Entry) :
    Passes key refuse entries ∨ ∃ before entry after fault, entries = before ++ entry :: after ∧
      Passes key refuse before ∧ Blames key refuse clash before entry fault := by
  induction entries using List.reverseRecOn with
  | nil => exact .inl .nil
  | append_singleton entries last ih =>
      rcases ih with hpasses | ⟨before, entry, after, fault, rfl, hbefore, hblames⟩
      · rcases hpasses.concat_or_blames clash last with hlast | ⟨fault, hblames⟩
        · exact .inl hlast
        · exact .inr ⟨entries, last, [], fault, rfl, hpasses, hblames⟩
      · exact .inr ⟨before, entry, after ++ [last], fault, by simp, hbefore, hblames⟩

/-! ### The walk -/

section Walk

variable [BEq κ] [Hashable κ] {seen : Std.HashMap κ Nat}

/-- The table has the keys of the entries, each with the line of its entry. -/
def Holds (key : Entry → κ) (seen : Std.HashMap κ Nat) (before : List Entry) : Prop :=
  ∀ k line, seen[k]? = some line ↔ ∃ e ∈ before, key e = k ∧ e.line = line

theorem Holds.getElem?_eq_none_iff (h : Holds key seen before) {k : κ} :
    seen[k]? = none ↔ ∀ e ∈ before, key e ≠ k := by
  rw [Option.eq_none_iff_forall_ne_some]
  constructor
  · intro hnone e he hkey
    exact hnone e.line ((h k e.line).2 ⟨e, he, hkey, rfl⟩)
  · intro hkeys line hline
    obtain ⟨e, he, hkey, -⟩ := (h k line).1 hline
    exact hkeys e he hkey

/-- The walk stops at an entry that is to blame. -/
theorem Holds.checkKeys_of_blames (h : Holds key seen before)
    (hblames : Blames key refuse clash before entry fault) (rest : List Entry) :
    checkKeys key refuse clash seen (entry :: rest) = .error fault := by
  rw [checkKeys]
  rcases hblames with hrefuse | ⟨hrefuse, first, hfirst, hkey, rfl⟩
  · simp only [hrefuse]
  · have hseen : seen[key entry]? = some first.line := (h _ _).2 ⟨first, hfirst, hkey, rfl⟩
    simp only [hrefuse, hseen]

variable [LawfulBEq κ]

theorem holds_empty : Holds key ∅ [] := by
  intro k line
  simp

theorem Holds.insert (h : Holds key seen before) (hentry : seen[key entry]? = none) :
    Holds key (seen.insert (key entry) entry.line) (before ++ [entry]) := by
  intro k line
  rw [Std.HashMap.getElem?_insert]
  by_cases hk : key entry = k
  · subst hk
    have hnone : ¬ ∃ e ∈ before, key e = key entry ∧ e.line = line := by
      rw [← h, hentry]
      exact nofun
    simp only [BEq.rfl, if_true, Option.some.injEq, List.mem_append, List.mem_singleton]
    constructor
    · intro hline
      exact ⟨entry, .inr rfl, rfl, hline⟩
    · rintro ⟨e, he | rfl, hkey, hline⟩
      · exact absurd ⟨e, he, hkey, hline⟩ hnone
      · exact hline
  · have hne : (key entry == k) = false := by simpa using hk
    simp [hne, h k line, or_and_right, exists_or, hk]

/-- The walk goes past entries that pass, and the table that it goes on with holds them. -/
theorem Holds.checkKeys_append {passed : List Entry} (h : Holds key seen before)
    (hpassed : Passes key refuse (before ++ passed)) (clash : Entry → Nat → Fault) :
    ∃ seen', Holds key seen' (before ++ passed) ∧ ∀ rest,
      checkKeys key refuse clash seen (passed ++ rest) = checkKeys key refuse clash seen' rest := by
  induction passed generalizing seen before with
  | nil => exact ⟨seen, by simpa using h, fun rest => rfl⟩
  | cons entry passed ih =>
      rw [List.append_cons] at hpassed ⊢
      obtain ⟨-, hrefuse, hkeys⟩ := passes_concat_iff.1 hpassed.of_append
      have hseen : seen[key entry]? = none := h.getElem?_eq_none_iff.2 hkeys
      obtain ⟨seen', hseen', hwalk⟩ := ih (h.insert hseen) hpassed
      refine ⟨seen', hseen', fun rest => ?_⟩
      rw [List.cons_append, checkKeys, ← hwalk rest]
      simp only [hrefuse, hseen]

/-- The walk fails with what the first entry that is to blame is blamed for. -/
theorem checkKeys_eq_error_iff : checkKeys key refuse clash ∅ entries = .error fault ↔
    ∃ before entry after, entries = before ++ entry :: after ∧ Passes key refuse before ∧
      Blames key refuse clash before entry fault := by
  have hstops {before after : List Entry} {entry : Entry} {fault : Fault}
      (hbefore : Passes key refuse before) (hblames : Blames key refuse clash before entry fault) :
      checkKeys key refuse clash ∅ (before ++ entry :: after) = .error fault := by
    have hpassed : Passes key refuse ([] ++ before) := hbefore
    obtain ⟨seen, hseen, hwalk⟩ := holds_empty.checkKeys_append hpassed clash
    rw [hwalk]
    exact hseen.checkKeys_of_blames hblames after
  constructor
  · intro h
    rcases passes_or_first_blamed key refuse clash entries with
      hpasses | ⟨before, entry, after, found, rfl, hbefore, hblames⟩
    · have hok : checkKeys key refuse clash ∅ entries = .ok () :=
        checkKeys_eq_ok_iff.2 ⟨fun e he => ⟨hpasses.1 e he, by simp⟩, hpasses.2⟩
      rw [hok] at h
      cases h
    · rw [hstops hbefore hblames] at h
      cases h
      exact ⟨before, entry, after, rfl, hbefore, hblames⟩
  · rintro ⟨before, entry, after, rfl, hbefore, hblames⟩
    exact hstops hbefore hblames

end Walk

/-! ### The two checks -/

variable {name : String}

/-- The names can be used in a generated class: no two entries ask for one, and none is reserved. -/
def UsableNames (entries : List Entry) : Prop :=
  (entries.map SlotName.ofEntry).Nodup ∧
    ∀ e ∈ entries, (SlotName.ofEntry e).text ∉ SlotName.reservedWords

theorem isReserved_iff {slotName : SlotName} :
    slotName.isReserved = true ↔ slotName.text ∈ SlotName.reservedWords := by
  simp [SlotName.isReserved]

theorem isReserved_eq_false_iff {slotName : SlotName} :
    slotName.isReserved = false ↔ slotName.text ∉ SlotName.reservedWords := by
  rw [← isReserved_iff, Bool.not_eq_true]

/-- The check of the identifiers blames the first entry that repeats one. -/
theorem checkIdentifiers_eq_error_iff : checkIdentifiers name entries = .error fault ↔
    ∃ before entry after, entries = before ++ entry :: after ∧
      (before.map (·.identifier)).Nodup ∧ ∃ first ∈ before, first.identifier = entry.identifier ∧
        fault = .duplicateIdentifier name entry.identifier entry.line first.line := by
  simp [checkIdentifiers, checkKeys_eq_error_iff, Passes, Blames]

/-- The check of the slot names blames the first entry whose name is reserved or asked for before. A
name that is both is reported as reserved. -/
theorem checkSlotNames_eq_error_iff : checkSlotNames name entries = .error fault ↔
    ∃ before entry after, entries = before ++ entry :: after ∧ UsableNames before ∧
      ((SlotName.ofEntry entry).text ∈ SlotName.reservedWords ∧
          fault = .reservedSlot name (SlotName.ofEntry entry).text entry.line ∨
        (SlotName.ofEntry entry).text ∉ SlotName.reservedWords ∧
          ∃ first ∈ before, SlotName.ofEntry first = SlotName.ofEntry entry ∧
            fault = .slotCollision name (SlotName.ofEntry entry).text entry.line first.line) := by
  simp only [checkSlotNames, checkKeys_eq_error_iff, Passes, Blames, UsableNames, isReserved_iff,
    Option.ite_none_right_eq_some, Option.some.injEq, ite_eq_right_iff, reduceCtorEq, imp_false,
    eq_comm (a := fault), and_comm (b := List.Nodup _)]

end Switchboard.Mapping
