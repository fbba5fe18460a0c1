import Mathlib.Order.Bounds.Basic
import Switchboard.Proofs.Mapping.Blame

/-!
Where a check stops, counted in the list of entries. A position is at fault when its entry is refused
or has the key of an entry further up. The entry that a check blames is the one at the least position
at fault, wherever else in the list there are positions at fault. Above the least one no two entries
have one key, so the entry that is named as the first holder of the key stands at one position only.

Neither check looks at the numbers of lines, or at how entries were read: both are about lists of
entries with any numbers whatever. A fault copies the two numbers that it names from the entries.
-/

namespace Switchboard.Mapping

variable {κ : Type} {key : Entry → κ} {refuse : Entry → Option Fault}
  {clash : Entry → Nat → Fault} {before after entries : List Entry} {entry : Entry} {fault : Fault}
  {i i' j : Nat}

/-! ### Positions at fault -/

/-- The entries at the two positions have one key, and the first of them stands further up. -/
def SharesKey (key : Entry → κ) (entries : List Entry) (i j : Nat) : Prop :=
  i < j ∧ ∃ first ∈ entries[i]?, ∃ entry ∈ entries[j]?, key first = key entry

instance [DecidableEq κ] (key : Entry → κ) (entries : List Entry) (i j : Nat) :
    Decidable (SharesKey key entries i j) :=
  inferInstanceAs (Decidable (_ ∧ _))

/-- The entry at the position is refused, or it has the key of an entry further up. -/
def AtFault (key : Entry → κ) (refuse : Entry → Option Fault) (entries : List Entry) (j : Nat) :
    Prop :=
  (∃ entry ∈ entries[j]?, refuse entry ≠ none) ∨ ∃ i, SharesKey key entries i j

instance [DecidableEq κ] (key : Entry → κ) (entries : List Entry) (j : Nat) :
    Decidable (∃ i, SharesKey key entries i j) :=
  decidable_of_iff (∃ i < j, SharesKey key entries i j)
    ⟨fun ⟨i, _, h⟩ => ⟨i, h⟩, fun ⟨i, h⟩ => ⟨i, h.1, h⟩⟩

theorem isLeast_of_forall_lt {p : Nat → Prop} {n : Nat} (h : p n) (hlt : ∀ j < n, ¬ p j) :
    IsLeast {j | p j} n :=
  ⟨h, fun j hj => Nat.le_of_not_lt fun hjn => hlt j hjn hj⟩

theorem SharesKey.getElem?_map_eq (h : SharesKey key entries i j) :
    (entries.map key)[i]? = (entries.map key)[j]? := by
  obtain ⟨-, first, hfirst, entry, hentry, hkey⟩ := h
  rw [Option.mem_def] at hfirst hentry
  simp [hfirst, hentry, hkey]

/-- Further up than some position, what stands behind it does not matter. -/
theorem SharesKey.of_append (h : SharesKey key (before ++ after) i j) (hj : j < before.length) :
    SharesKey key before i j := by
  obtain ⟨hi, first, hfirst, entry, hentry, hkey⟩ := h
  rw [List.getElem?_append_left (by omega)] at hfirst hentry
  exact ⟨hi, first, hfirst, entry, hentry, hkey⟩

/-- A key that an entry in front has already is shared with the position of that entry. -/
theorem exists_sharesKey_of_mem {first : Entry} (hfirst : first ∈ before)
    (hkey : key first = key entry) (after : List Entry) :
    ∃ i, (before ++ entry :: after)[i]? = some first ∧
      SharesKey key (before ++ entry :: after) i before.length := by
  obtain ⟨i, hi⟩ := List.getElem?_of_mem hfirst
  have hlt : i < before.length := (List.getElem?_eq_some_iff.1 hi).1
  have hfirst' : (before ++ entry :: after)[i]? = some first := by
    rw [List.getElem?_append_left hlt, hi]
  exact ⟨i, hfirst', hlt, first, hfirst', entry, by simp, hkey⟩

/-- Entries that pass are nowhere at fault, whatever stands behind them. -/
theorem Passes.not_atFault (h : Passes key refuse before) (hj : j < before.length) :
    ¬ AtFault key refuse (before ++ after) j := by
  rintro (⟨entry, hentry, hrefuse⟩ | ⟨i, hshares⟩)
  · rw [List.getElem?_append_left hj] at hentry
    exact hrefuse (h.1 entry (List.mem_of_getElem? hentry))
  · have hbefore := hshares.of_append hj
    have hi : i < (before.map key).length := by
      have := hbefore.1
      rw [List.length_map]
      omega
    have heq : i = j := (List.getElem?_inj hi h.2).1 hbefore.getElem?_map_eq
    exact absurd hbefore.1 (by omega)

/-- An entry that is to blame stands at the least position at fault. -/
theorem Blames.isLeast (hbefore : Passes key refuse before)
    (hblames : Blames key refuse clash before entry fault) (after : List Entry) :
    IsLeast {j | AtFault key refuse (before ++ entry :: after) j} before.length := by
  apply isLeast_of_forall_lt
  · rcases hblames with hrefuse | ⟨-, first, hfirst, hkey, -⟩
    · exact .inl ⟨entry, by simp, by simp [hrefuse]⟩
    · obtain ⟨i, -, hshares⟩ := exists_sharesKey_of_mem hfirst hkey after
      exact .inr ⟨i, hshares⟩
  · exact fun j hj => hbefore.not_atFault hj

/-- The key of the entry behind entries that pass belongs to at most one of these. -/
theorem Passes.eq_of_sharesKey (hbefore : Passes key refuse before)
    (h : SharesKey key (before ++ entry :: after) i before.length)
    (h' : SharesKey key (before ++ entry :: after) i' before.length) : i = i' := by
  have hi : i < (before.map key).length := by simpa using h.1
  have hi' : i' < (before.map key).length := by simpa using h'.1
  have heq := h.getElem?_map_eq.trans h'.getElem?_map_eq.symm
  rw [List.map_append, List.getElem?_append_left hi, List.getElem?_append_left hi'] at heq
  exact (List.getElem?_inj hi hbefore.2).1 heq

/-- A check that does not accept the entries stops at the least position at fault. If the entry there
is not refused, exactly one position further up has an entry with its key. -/
theorem checkKeys_blames_least [BEq κ] [Hashable κ] [LawfulBEq κ] (clash : Entry → Nat → Fault)
    (h : ¬ Passes key refuse entries) :
    ∃ j entry, IsLeast {j | AtFault key refuse entries j} j ∧ entries[j]? = some entry ∧
      (∀ fault, refuse entry = some fault →
        checkKeys key refuse clash ∅ entries = .error fault) ∧
      (refuse entry = none → ∃ i first, SharesKey key entries i j ∧
        (∀ i', SharesKey key entries i' j → i' = i) ∧ entries[i]? = some first ∧
        checkKeys key refuse clash ∅ entries = .error (clash entry first.line)) := by
  obtain hpasses | ⟨before, entry, after, found, rfl, hbefore, hblames⟩ :=
    passes_or_first_blamed key refuse clash entries
  · exact absurd hpasses h
  have hstops {fault : Fault} (hblames : Blames key refuse clash before entry fault) :
      checkKeys key refuse clash ∅ (before ++ entry :: after) = .error fault :=
    checkKeys_eq_error_iff.2 ⟨before, entry, after, rfl, hbefore, hblames⟩
  refine ⟨before.length, entry, hblames.isLeast hbefore after, by simp, ?_, ?_⟩
  · exact fun fault hrefuse => hstops (.inl hrefuse)
  · intro hrefuse
    rcases hblames with hrefused | ⟨-, first, hfirst, hkey, -⟩
    · rw [hrefuse] at hrefused
      cases hrefused
    · obtain ⟨i, hfirst', hshares⟩ := exists_sharesKey_of_mem hfirst hkey after
      refine ⟨i, first, hshares, fun i' h' => hbefore.eq_of_sharesKey h' hshares, hfirst', ?_⟩
      exact hstops (.inr ⟨hrefuse, first, hfirst, hkey, rfl⟩)

/-- What stands behind the entry that is to blame does not change the fault. -/
theorem checkKeys_append_of_eq_error [BEq κ] [Hashable κ] [LawfulBEq κ]
    (h : checkKeys key refuse clash ∅ entries = .error fault) (more : List Entry) :
    checkKeys key refuse clash ∅ (entries ++ more) = .error fault := by
  obtain ⟨before, entry, after, rfl, hbefore, hblames⟩ := checkKeys_eq_error_iff.1 h
  exact checkKeys_eq_error_iff.2 ⟨before, entry, after ++ more, by simp, hbefore, hblames⟩

/-! ### The two checks -/

/-- The check of the identifiers accepts the entries whose identifiers are pairwise different.
Otherwise it blames the least position that repeats an identifier, and names the line of the one
position further up that has it. The fault stays the same however many entries follow. -/
theorem first_repetition_blamed (mapping : String) (entries : List Entry) :
    (checkIdentifiers mapping entries = .ok () ↔ (entries.map (·.identifier)).Nodup) ∧
      (¬ (entries.map (·.identifier)).Nodup →
        ∃ i j first entry, IsLeast {j | ∃ i, SharesKey (·.identifier) entries i j} j ∧
          SharesKey (·.identifier) entries i j ∧
          (∀ i', SharesKey (·.identifier) entries i' j → i' = i) ∧
          entries[i]? = some first ∧ entries[j]? = some entry ∧
          checkIdentifiers mapping entries =
            .error (.duplicateIdentifier mapping entry.identifier entry.line first.line) ∧
          ∀ more, checkIdentifiers mapping (entries ++ more) = checkIdentifiers mapping entries) := by
  refine ⟨checkIdentifiers_eq_ok_iff, fun hrepeats => ?_⟩
  have hfails : ¬ Passes (·.identifier) (fun _ => none) entries := fun h => hrepeats h.2
  obtain ⟨j, entry, hleast, hentry, -, hshares⟩ := checkKeys_blames_least
    (fun entry firstLine => .duplicateIdentifier mapping entry.identifier entry.line firstLine) hfails
  obtain ⟨i, first, hshares, hunique, hfirst, hcheck⟩ := hshares rfl
  have hset : {j | ∃ i, SharesKey (·.identifier) entries i j} =
      {j | AtFault (·.identifier) (fun _ => none) entries j} := by
    simp [AtFault]
  refine ⟨i, j, first, entry, ?_, hshares, hunique, hfirst, hentry, hcheck, fun more => ?_⟩
  · rw [hset]
    exact hleast
  · exact (checkKeys_append_of_eq_error hcheck more).trans hcheck.symm

/-- Two identifiers come twice and one of them three times, on lines without any order. -/
def twoRepeated : List Entry :=
  [⟨5, "A", 9⟩, ⟨6, "B", 4⟩, ⟨7, "C", 4⟩, ⟨6, "D", 8⟩, ⟨5, "E", 1⟩, ⟨6, "F", 2⟩]

/-- The identifier that comes back first is blamed, and not the one that was there first. -/
theorem first_repetition_twoRepeated :
    ¬ (twoRepeated.map (·.identifier)).Nodup ∧
      checkIdentifiers "ip" twoRepeated = .error (.duplicateIdentifier "ip" 6 8 4) := by
  have hrepeats : ¬ (twoRepeated.map (·.identifier)).Nodup := by decide
  obtain ⟨i, j, first, entry, hleast, -, hunique, hfirst, hentry, hcheck, -⟩ :=
    (first_repetition_blamed "ip" twoRepeated).2 hrepeats
  have hthree : IsLeast {j | ∃ i, SharesKey (·.identifier) twoRepeated i j} 3 :=
    isLeast_of_forall_lt (by decide) (by decide)
  obtain rfl := hleast.unique hthree
  obtain rfl := hunique 1 (by decide)
  cases hfirst
  cases hentry
  exact ⟨hrepeats, hcheck⟩

instance (entries : List Entry) : Decidable (UsableNames entries) :=
  inferInstanceAs (Decidable (_ ∧ _))

/-- What the check of the slot names refuses on its own account. -/
def refuseReserved (mapping : String) (entry : Entry) : Option Fault :=
  if (SlotName.ofEntry entry).isReserved then
    some (.reservedSlot mapping (SlotName.ofEntry entry).text entry.line)
  else none

theorem refuseReserved_eq_none_iff {mapping : String} {entry : Entry} :
    refuseReserved mapping entry = none ↔
      (SlotName.ofEntry entry).text ∉ SlotName.reservedWords := by
  simp [refuseReserved, isReserved_iff]

/-- The check of the slot names accepts the entries whose names can be used. Otherwise it blames the
least position whose name is reserved or stands further up. A reserved name is reported as such, and
any other one with the line of the one position further up that has it. -/
theorem first_unusable_name_blamed (mapping : String) (entries : List Entry) :
    (checkSlotNames mapping entries = .ok () ↔ UsableNames entries) ∧
      (¬ UsableNames entries →
        ∃ j entry, IsLeast {j | (∃ entry ∈ entries[j]?,
              (SlotName.ofEntry entry).text ∈ SlotName.reservedWords) ∨
            ∃ i, SharesKey SlotName.ofEntry entries i j} j ∧ entries[j]? = some entry ∧
          ((SlotName.ofEntry entry).text ∈ SlotName.reservedWords →
            checkSlotNames mapping entries =
              .error (.reservedSlot mapping (SlotName.ofEntry entry).text entry.line)) ∧
          ((SlotName.ofEntry entry).text ∉ SlotName.reservedWords →
            ∃ i first, SharesKey SlotName.ofEntry entries i j ∧
              (∀ i', SharesKey SlotName.ofEntry entries i' j → i' = i) ∧ entries[i]? = some first ∧
              checkSlotNames mapping entries =
                .error (.slotCollision mapping (SlotName.ofEntry entry).text entry.line
                  first.line))) := by
  have husable : UsableNames entries ↔ Passes SlotName.ofEntry (refuseReserved mapping) entries := by
    simp [UsableNames, Passes, refuseReserved_eq_none_iff, and_comm]
  refine ⟨?_, fun h => ?_⟩
  · rw [checkSlotNames_eq_ok_iff, UsableNames, and_comm]
    simp only [isReserved_eq_false_iff]
  obtain ⟨j, entry, hleast, hentry, hreserved, hshares⟩ := checkKeys_blames_least
    (fun entry firstLine =>
      .slotCollision mapping (SlotName.ofEntry entry).text entry.line firstLine) (mt husable.2 h)
  have hset : {j | (∃ entry ∈ entries[j]?, (SlotName.ofEntry entry).text ∈ SlotName.reservedWords) ∨
      ∃ i, SharesKey SlotName.ofEntry entries i j} =
      {j | AtFault SlotName.ofEntry (refuseReserved mapping) entries j} := by
    simp only [AtFault, ne_eq, refuseReserved_eq_none_iff, Classical.not_not]
  refine ⟨j, entry, ?_, hentry, fun hname => hreserved _ ?_, fun hname => hshares ?_⟩
  · rw [hset]
    exact hleast
  · rw [refuseReserved, if_pos (isReserved_iff.2 hname)]
  · exact refuseReserved_eq_none_iff.2 hname

/-- A slot name is asked for on two lines, and a later one is reserved. -/
def sharedThenReserved : List Entry :=
  [⟨1, "A1", 7⟩, ⟨6, "TCPAnalyzer", 5⟩, ⟨0x11, "A", 3⟩, ⟨0xf, "I", 2⟩]

/-- The name that is asked for twice is blamed, and the reserved one if it stands in front. -/
theorem first_unusable_name_sharedThenReserved :
    checkSlotNames "ip" sharedThenReserved = .error (.slotCollision "ip" "a11" 3 7) ∧
      checkSlotNames "ip" (⟨0xf, "I", 8⟩ :: sharedThenReserved) =
        .error (.reservedSlot "ip" "if" 8) := by
  constructor
  · obtain ⟨j, entry, hleast, hentry, -, hshares⟩ :=
      (first_unusable_name_blamed "ip" sharedThenReserved).2 (by decide)
    have htwo : IsLeast {j | (∃ entry ∈ sharedThenReserved[j]?,
        (SlotName.ofEntry entry).text ∈ SlotName.reservedWords) ∨
        ∃ i, SharesKey SlotName.ofEntry sharedThenReserved i j} 2 :=
      isLeast_of_forall_lt (by decide) (by decide)
    obtain rfl := hleast.unique htwo
    cases hentry
    obtain ⟨i, first, -, hunique, hfirst, hcheck⟩ := hshares (by decide)
    obtain rfl := hunique 0 (by decide)
    cases hfirst
    exact hcheck
  · obtain ⟨j, entry, hleast, hentry, hreserved, -⟩ :=
      (first_unusable_name_blamed "ip" (⟨0xf, "I", 8⟩ :: sharedThenReserved)).2 (by decide)
    obtain rfl : j = 0 := Nat.le_zero.1 (hleast.2 (.inl (by decide)))
    cases hentry
    exact hreserved (by decide)

end Switchboard.Mapping
