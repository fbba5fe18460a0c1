import Switchboard.Proofs.Plan.Order

/-!
What a plan answers. The three layouts search in three ways: a switch asks a hash index in which a
later slot would win, a chain scans for the first slot, and a table subtracts, tests its bounds and
reads a cell. On the slots of a mapping, none of which shares its identifier, all of them locate: the
search for an identifier ends at the position of its slot, and nowhere when it has none.

`Locates` says this of a search alone, so each layout has to show only that every slot is found where
it stands (a hit) and that nothing is found for an identifier without a slot (a miss). Everything that
is said of plans afterwards rests on `Locates` and on the slots being those of the mapping.
-/

namespace Switchboard

/-- The search ends at the position of the slot with the identifier, and nowhere without one. -/
def Locates (slots : Array Slot) (find? : Identifier → Option Nat) : Prop :=
  ∀ x i, find? x = some i ↔ ∃ slot, slots[i]? = some slot ∧ slot.identifier = x

/-- Hits and misses are all there is to a search. -/
theorem Locates.of_hit_of_miss {slots : Array Slot} {find? : Identifier → Option Nat}
    (hit : ∀ i slot, slots[i]? = some slot → find? slot.identifier = some i)
    (miss : ∀ x, (∀ slot ∈ slots, slot.identifier ≠ x) → find? x = none) :
    Locates slots find? := by
  intro x i
  constructor
  · intro hfind
    by_cases hx : ∃ slot ∈ slots, slot.identifier = x
    · -- The slot is found where it stands, so `i` is its position and no other slot's.
      obtain ⟨slot, hmem, rfl⟩ := hx
      obtain ⟨j, hj⟩ := Array.getElem?_of_mem hmem
      have hij : j = i := by
        rw [hit j slot hj] at hfind
        exact Option.some.inj hfind
      exact ⟨slot, hij ▸ hj, rfl⟩
    · rw [miss x fun slot hmem heq => hx ⟨slot, hmem, heq⟩] at hfind
      cases hfind
  · rintro ⟨slot, hslot, rfl⟩
    exact hit i slot hslot

/-- Two slots of a mapping with one identifier stand at one position. -/
theorem position_unique {slots : List Slot} (hnodup : (slots.map (·.identifier)).Nodup)
    {i j : Nat} {a b : Slot} (ha : slots[i]? = some a) (hb : slots[j]? = some b)
    (h : a.identifier = b.identifier) : i = j := by
  have hi : i < (slots.map (·.identifier)).length := by
    rw [List.length_map]
    exact (List.getElem?_eq_some_iff.1 ha).1
  apply (List.getElem?_inj hi hnodup).1
  rw [List.getElem?_map, List.getElem?_map, ha, hb, Option.map_some, Option.map_some, h]

/-! ### Switches -/

namespace SwitchPlan

/-- Slots leave the index alone at the identifiers they do not have. -/
theorem getElem?_indexFrom_of_ne {slots : List Slot} {x : Identifier}
    (h : ∀ slot ∈ slots, slot.identifier ≠ x) (start : Nat) (index : Std.HashMap Identifier Nat) :
    (indexFrom start index slots)[x]? = index[x]? := by
  induction slots generalizing start index with
  | nil => rfl
  | cons slot rest ih =>
      have hhead : slot.identifier ≠ x := h slot List.mem_cons_self
      rw [indexFrom, ih fun s hs => h s (List.mem_cons_of_mem _ hs)]
      simp [Std.HashMap.getElem?_insert, hhead]

/-- Later slots would win, but none of them has the identifier of an earlier one. -/
theorem getElem?_indexFrom {slots : List Slot} (hnodup : (slots.map (·.identifier)).Nodup)
    (start : Nat) (index : Std.HashMap Identifier Nat) {i : Nat} {slot : Slot}
    (h : slots[i]? = some slot) :
    (indexFrom start index slots)[slot.identifier]? = some (start + i) := by
  induction slots generalizing start index i with
  | nil => simp at h
  | cons first rest ih =>
      rw [List.map_cons, List.nodup_cons] at hnodup
      cases i with
      | zero =>
          obtain rfl : first = slot := by simpa using h
          have hrest : ∀ s ∈ rest, s.identifier ≠ first.identifier := by
            intro s hs heq
            exact hnodup.1 (heq ▸ List.mem_map_of_mem hs)
          rw [indexFrom, getElem?_indexFrom_of_ne hrest]
          simp
      | succ i =>
          rw [List.getElem?_cons_succ] at h
          rw [indexFrom, ih hnodup.2 _ _ h]
          congr 1
          omega

theorem locates (mapping : Mapping) :
    Locates (ofMapping mapping).cases (ofMapping mapping).find? := by
  apply Locates.of_hit_of_miss
  · intro i slot hslot
    have h : mapping.slots[i]? = some slot := by simpa [ofMapping] using hslot
    simpa [find?, ofMapping] using getElem?_indexFrom mapping.nodup_slots_identifiers 0 ∅ h
  · intro x hx
    have h : ∀ slot ∈ mapping.slots, slot.identifier ≠ x := by simpa [ofMapping] using hx
    simpa [find?, ofMapping] using getElem?_indexFrom_of_ne h 0 ∅

end SwitchPlan

/-! ### Chains -/

namespace ChainPlan

theorem locates (mapping : Mapping) :
    Locates (ofMapping mapping).tests (ofMapping mapping).find? := by
  have hnodup := mapping.nodup_slots_identifiers
  apply Locates.of_hit_of_miss
  · intro i slot hslot
    have h : mapping.slots[i]? = some slot := by simpa [ofMapping] using hslot
    simp only [find?, ofMapping, List.findIdx?_toArray]
    rw [List.findIdx?_eq_some_iff_getElem]
    obtain ⟨hi, hget⟩ := List.getElem?_eq_some_iff.1 h
    refine ⟨hi, by simp [hget], ?_⟩
    intro j hji heq
    have hj : mapping.slots[j]? = some mapping.slots[j] := List.getElem?_eq_getElem (by omega)
    have hsame := position_unique hnodup hj h (by simpa using heq)
    omega
  · intro x hx
    simp only [find?, Array.findIdx?_eq_none_iff]
    intro slot hslot
    simpa using hx slot hslot

end ChainPlan

/-! ### Tables -/

namespace TablePlan

variable {lo : Identifier} {slots : List Slot}

/-- A cell that no slot belongs to keeps its content. -/
theorem getElem?_place_of_ne {p : Nat}
    (h : ∀ slot ∈ slots, (slot.identifier - lo).toNat ≠ p) (start : Nat)
    (cells : Array (Option Nat)) : (place lo start cells slots)[p]? = cells[p]? := by
  induction slots generalizing start cells with
  | nil => rfl
  | cons slot rest ih =>
      rw [place, ih fun s hs => h s (List.mem_cons_of_mem _ hs)]
      exact Array.getElem?_setIfInBounds_ne (h slot List.mem_cons_self)

/-- A cell that a slot belongs to holds the position of that slot when all slots are placed: the
slots after it have other cells, since they have other identifiers. -/
theorem getElem?_place (hnodup : (slots.map (·.identifier)).Nodup) (start : Nat)
    {cells : Array (Option Nat)} {i : Nat} {slot : Slot} (h : slots[i]? = some slot)
    (hsize : (slot.identifier - lo).toNat < cells.size) :
    (place lo start cells slots)[(slot.identifier - lo).toNat]? = some (some (start + i)) := by
  induction slots generalizing start cells i with
  | nil => simp at h
  | cons first rest ih =>
      rw [List.map_cons, List.nodup_cons] at hnodup
      cases i with
      | zero =>
          obtain rfl : first = slot := by simpa using h
          have hrest : ∀ s ∈ rest, (s.identifier - lo).toNat ≠ (first.identifier - lo).toNat := by
            intro s hs heq
            have : s.identifier = first.identifier :=
              UInt32.sub_left_inj lo |>.1 (UInt32.toNat_inj.1 heq)
            exact hnodup.1 (this ▸ List.mem_map_of_mem hs)
          rw [place, getElem?_place_of_ne hrest]
          simp [hsize]
      | succ i =>
          rw [List.getElem?_cons_succ] at h
          rw [place, ih hnodup.2 _ h (by simpa using hsize)]
          congr 2
          omega

/-- Identifiers and cells of a table belong together: every slot lies in the range of the table and
is found in the cell at its distance from `lo`, and a cell holds nothing but the slot it is for. -/
structure Exact (plan : TablePlan) : Prop where
  lo_le : ∀ slot ∈ plan.slots, plan.lo ≤ slot.identifier
  lt_size : ∀ slot ∈ plan.slots, (slot.identifier - plan.lo).toNat < plan.cells.size
  cell_of_slot : ∀ i slot, plan.slots[i]? = some slot →
    plan.cells[(slot.identifier - plan.lo).toNat]? = some (some i)
  slot_of_cell : ∀ p i, plan.cells[p]? = some (some i) →
    ∃ slot, plan.slots[i]? = some slot ∧ slot.identifier.toNat = plan.lo.toNat + p

theorem exact_ofMapping {mapping : Mapping} {limit : Nat} {plan : TablePlan}
    (h : ofMapping mapping limit = .ok plan) : Exact plan := by
  obtain ⟨first, last, hfirst, hlast, -, rfl⟩ := ofMapping_eq_ok h
  have hnodup := nodup_sortedSlots_identifiers mapping
  have hlo : ∀ slot ∈ sortedSlots mapping, first.identifier ≤ slot.identifier :=
    fun slot hslot => head_le hfirst hslot
  have hsize : ∀ slot ∈ sortedSlots mapping,
      (slot.identifier - first.identifier).toNat <
        span first.identifier last.identifier := by
    intro slot hslot
    have hle := UInt32.le_iff_toNat_le.1 (le_getLast hlast hslot)
    rw [UInt32.toNat_sub_of_le _ _ (hlo slot hslot), span]
    omega
  have hplace : ∀ i slot, (sortedSlots mapping)[i]? = some slot →
      (place first.identifier 0
        (Array.replicate (span first.identifier last.identifier) none) (sortedSlots mapping))[
          (slot.identifier - first.identifier).toNat]? = some (some i) := by
    intro i slot hslot
    rw [getElem?_place hnodup 0 hslot, Nat.zero_add]
    rw [Array.size_replicate]
    exact hsize slot (List.mem_of_getElem? hslot)
  refine ⟨by simpa using hlo, by simpa using hsize, ?_, ?_⟩
  · intro i slot hslot
    rw [List.getElem?_toArray] at hslot
    exact hplace i slot hslot
  · intro p i hcell
    by_cases hp : ∃ slot ∈ sortedSlots mapping, (slot.identifier - first.identifier).toNat = p
    · obtain ⟨slot, hmem, rfl⟩ := hp
      obtain ⟨j, hj⟩ := List.getElem?_of_mem hmem
      have hji : j = i := by
        rw [hplace j slot hj] at hcell
        simpa using hcell
      refine ⟨slot, by simpa [hji] using hj, ?_⟩
      have hle := UInt32.le_iff_toNat_le.1 (hlo slot hmem)
      show slot.identifier.toNat = first.identifier.toNat + _
      rw [UInt32.toNat_sub_of_le _ _ (hlo slot hmem)]
      omega
    · -- No slot was placed in this cell, so it is as empty as it was at first.
      rw [getElem?_place_of_ne fun slot hmem heq => hp ⟨slot, hmem, heq⟩] at hcell
      simp [Array.getElem?_replicate] at hcell

theorem Exact.locates {plan : TablePlan} (h : Exact plan) : Locates plan.slots plan.find? := by
  apply Locates.of_hit_of_miss
  · intro i slot hslot
    have hmem : slot ∈ plan.slots := Array.mem_of_getElem? hslot
    have hlt : ¬slot.identifier < plan.lo := UInt32.not_lt.2 (h.lo_le slot hmem)
    have hcell := h.cell_of_slot i slot hslot
    rw [Array.getElem?_eq_getElem (h.lt_size slot hmem)] at hcell
    simpa [find?, hlt, h.lt_size slot hmem] using hcell
  · intro x hx
    unfold find?
    split
    · rfl
    · next hlt =>
      simp only
      split
      · next hsize =>
        cases hcell : plan.cells[(x - plan.lo).toNat] with
        | none => rfl
        | some i =>
            -- The slot in the cell of `x` would have the identifier `x`.
            have hcell' : plan.cells[(x - plan.lo).toNat]? = some (some i) := by
              rw [Array.getElem?_eq_getElem hsize, hcell]
            obtain ⟨slot, hslot, hnat⟩ := h.slot_of_cell _ _ hcell'
            have hle : plan.lo ≤ x := UInt32.not_lt.1 hlt
            have hle' := UInt32.le_iff_toNat_le.1 hle
            rw [UInt32.toNat_sub_of_le _ _ hle] at hnat
            have hslotx : slot.identifier = x := UInt32.toNat_inj.1 (by omega)
            exact absurd hslotx (hx slot (Array.mem_of_getElem? hslot))
      · rfl

end TablePlan

/-! ### Plans -/

namespace Plan

variable {strategy : Strategy} {mapping : Mapping} {config : Config} {plan : Plan}

theorem locates (h : ofMapping strategy mapping config = .ok plan) :
    Locates plan.slots plan.find? := by
  obtain ⟨rfl, rfl⟩ | ⟨rfl, rfl⟩ | ⟨table, rfl, htable, rfl⟩ := ofMapping_eq_ok h
  · exact SwitchPlan.locates mapping
  · exact ChainPlan.locates mapping
  · exact (TablePlan.exact_ofMapping htable).locates

theorem mem_slots (h : ofMapping strategy mapping config = .ok plan) {slot : Slot} :
    slot ∈ plan.slots ↔ slot ∈ mapping.slots := by
  rw [slots_ofMapping h, List.mem_toArray]
  exact (orderedSlots_perm strategy mapping).mem_iff

/-- What is found is a position among the slots. -/
theorem find?_lt_size (h : ofMapping strategy mapping config = .ok plan) {x : Identifier} {i : Nat}
    (hi : plan.find? x = some i) : i < plan.slots.size := by
  obtain ⟨slot, hslot, -⟩ := (locates h x i).1 hi
  exact (Array.getElem?_eq_some_iff.1 hslot).1

theorem lookup_eq_some_iff (h : ofMapping strategy mapping config = .ok plan) {x : Identifier}
    {slot : Slot} : plan.lookup x = some slot ↔ slot ∈ mapping.slots ∧ slot.identifier = x := by
  rw [lookup, Option.bind_eq_some_iff, ← mem_slots h]
  constructor
  · rintro ⟨i, hi, hslot⟩
    obtain ⟨found, hfound, rfl⟩ := (locates h x i).1 hi
    obtain rfl : found = slot := Option.some.inj (hfound.symm.trans hslot)
    exact ⟨Array.mem_of_getElem? hslot, rfl⟩
  · rintro ⟨hmem, rfl⟩
    obtain ⟨i, hi⟩ := Array.getElem?_of_mem hmem
    exact ⟨i, (locates h _ i).2 ⟨slot, hi, rfl⟩, hi⟩

theorem lookup_eq_none_iff (h : ofMapping strategy mapping config = .ok plan) {x : Identifier} :
    plan.lookup x = none ↔ ∀ slot ∈ mapping.slots, slot.identifier ≠ x := by
  rw [Option.eq_none_iff_forall_not_mem]
  simp only [Option.mem_def, lookup_eq_some_iff h, not_and]

/-- A lookup depends on the mapping alone and not on how it is laid out. -/
theorem lookup_eq_of_mapping (h : ofMapping strategy mapping config = .ok plan)
    {strategy' : Strategy} {config' : Config} {plan' : Plan}
    (h' : ofMapping strategy' mapping config' = .ok plan') (x : Identifier) :
    plan'.lookup x = plan.lookup x := by
  ext slot
  rw [lookup_eq_some_iff h', lookup_eq_some_iff h]

/-- The lookup contract: on every mapping the checks accept, every plan answers every identifier
with the slot of the one entry it belongs to, and with nothing when it belongs to none. So all plans
of a mapping agree, and what a plan finds is always a position among its slots. -/
theorem lookup_answers_entries {name : String} {entries : List Entry}
    (hmapping : Mapping.ofEntries name entries = .ok mapping)
    (hplan : ofMapping strategy mapping config = .ok plan) (x : Identifier) :
    entries.Pairwise (fun e e' => e.identifier ≠ e'.identifier) ∧
      (∀ e ∈ entries, e.identifier = x →
        plan.lookup x = some ⟨x, e.typeName, SlotName.ofEntry e⟩) ∧
      ((∀ e ∈ entries, e.identifier ≠ x) → plan.lookup x = none) ∧
      (∀ i, plan.find? x = some i → i < plan.slots.size) ∧
      ∀ strategy' config' plan', ofMapping strategy' mapping config' = .ok plan' →
        plan'.lookup x = plan.lookup x := by
  obtain ⟨-, rfl⟩ := Mapping.ofEntries_eq_ok hmapping
  refine ⟨List.pairwise_map.1 mapping.nodup_identifiers, ?_, ?_, fun _ => find?_lt_size hplan,
    fun _ _ _ hplan' => lookup_eq_of_mapping hplan hplan' x⟩
  · rintro e he rfl
    exact (lookup_eq_some_iff hplan).2 ⟨Mapping.mem_slots.2 ⟨e, he, rfl⟩, rfl⟩
  · intro hnone
    rw [lookup_eq_none_iff hplan]
    intro slot hslot
    obtain ⟨e, he, rfl⟩ := Mapping.mem_slots.1 hslot
    exact hnone e he

/-- A table of three protocols answers inside its range, below it, in a gap and above it. -/
theorem lookup_answers_ipProtocols :
    ∃ plan, Mapping.ofEntries "ip" Mapping.ipProtocols.entries = .ok Mapping.ipProtocols ∧
      ofMapping .array Mapping.ipProtocols {} = .ok plan ∧
      plan.lookup 6 = some ⟨6, "TCPAnalyzer", ⟨"tcpanalyzer6"⟩⟩ ∧
      plan.lookup 0 = none ∧ plan.lookup 2 = none ∧ plan.lookup 0xffffffff = none := by
  have hmapping := Mapping.ofEntries_self Mapping.ipProtocols
  obtain ⟨plan, hplan⟩ := ofMapping_ipProtocols
  have hanswers := fun x => lookup_answers_entries hmapping hplan x
  refine ⟨plan, hmapping, hplan, ?_, ?_, ?_, ?_⟩
  · exact (hanswers 6).2.1 ⟨6, "TCPAnalyzer", 2⟩ (by decide) rfl
  · exact (hanswers 0).2.2.1 (by decide)
  · exact (hanswers 2).2.2.1 (by decide)
  · exact (hanswers 0xffffffff).2.2.1 (by decide)

end Plan

end Switchboard
