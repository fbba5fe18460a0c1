import Mathlib.Order.Bounds.Defs
import Switchboard.Proofs.Plan.Lookup

/-!
The layout of a table. A table has one cell for every identifier from the smallest of its mapping to
the largest. Its cells can be told in two ways: slot by slot, each of which has the cell at its
distance from the smallest identifier (`Exact`), or identifier by identifier, as a walk over the
range that takes the next of the ascending slots whenever its identifier comes up (`walk`). The two
agree because the slots ascend strictly; two slots with one identifier would hold the walk up at the
second of them and leave the rest of the table empty.

Along the walk it can be seen that every slot is taken once, so the empty cells are as many as the
identifiers of the range without an entry.
-/

namespace Switchboard

/-- The smallest and the largest identifier of some entries. -/
structure Mapping.Spans (entries : List Entry) (lo hi : Identifier) : Prop where
  least : IsLeast {x | ∃ e ∈ entries, e.identifier = x} lo
  greatest : IsGreatest {x | ∃ e ∈ entries, e.identifier = x} hi

namespace TablePlan

/-! ### The walk -/

/-- The cells of `count` identifiers in a row, of which `next` is the first. Of the slots that are
left the first one is taken when its identifier comes up; its position is `start`. -/
def walk (next start : Nat) : Nat → List Slot → List (Option Nat)
  | 0, _ => []
  | count + 1, [] => none :: walk (next + 1) start count []
  | count + 1, slot :: rest =>
    if slot.identifier.toNat = next then some start :: walk (next + 1) (start + 1) count rest
    else none :: walk (next + 1) start count (slot :: rest)

@[simp] theorem length_walk (next start count : Nat) (slots : List Slot) :
    (walk next start count slots).length = count := by
  induction count generalizing next start slots with
  | zero => simp [walk]
  | succ count ih =>
      cases slots with
      | nil => simp [walk, ih]
      | cons slot rest =>
          rw [walk]
          split <;> simp [ih]

/-- Ascending slots that a walk has not passed when it starts. -/
structure Ahead (next : Nat) (slots : List Slot) : Prop where
  ascending : slots.Pairwise fun a b => a.identifier < b.identifier
  le : ∀ slot ∈ slots, next ≤ slot.identifier.toNat

namespace Ahead

variable {next : Nat} {slot : Slot} {slots rest : List Slot}

/-- The slot whose identifier comes up is taken, and the others are still ahead. -/
theorem taken (h : Ahead next (slot :: rest)) (hslot : slot.identifier.toNat = next) :
    Ahead (next + 1) rest := by
  obtain ⟨hfirst, hrest⟩ := List.pairwise_cons.1 h.ascending
  refine ⟨hrest, fun other hother => ?_⟩
  have hlt := UInt32.lt_iff_toNat_lt.1 (hfirst other hother)
  omega

/-- If the first slot is not yet up, none is. -/
theorem passed (h : Ahead next (slot :: rest)) (hslot : slot.identifier.toNat ≠ next) :
    Ahead (next + 1) (slot :: rest) := by
  have hnext := h.le slot List.mem_cons_self
  refine ⟨h.ascending, fun other hother => ?_⟩
  rcases List.mem_cons.1 hother with rfl | hother
  · omega
  · have hlt := UInt32.lt_iff_toNat_lt.1 (List.rel_of_pairwise_cons h.ascending hother)
    omega

end Ahead

/-- The walk puts the position of a slot down when the identifier of the slot comes up. -/
theorem getElem?_walk_eq_some_iff {next count p : Nat} {slots : List Slot} (h : Ahead next slots)
    (hp : p < count) (start i : Nat) :
    (walk next start count slots)[p]? = some (some i) ↔
      ∃ j slot, i = start + j ∧ slots[j]? = some slot ∧ slot.identifier.toNat = next + p := by
  induction count generalizing next start p slots with
  | zero => omega
  | succ count ih =>
      cases slots with
      | nil =>
          cases p with
          | zero => simp [walk]
          | succ p => simp [walk, ih ⟨.nil, nofun⟩ (Nat.lt_of_succ_lt_succ hp)]
      | cons slot rest =>
          rw [walk]
          split
          · next hslot =>
            have hrest := h.taken hslot
            cases p with
            | zero =>
                constructor
                · intro hi
                  exact ⟨0, slot, by simpa using hi.symm, rfl, hslot⟩
                · rintro ⟨_ | j, other, rfl, hother, hnext⟩
                  · simp
                  · have hle := hrest.le other (List.mem_of_getElem? hother)
                    omega
            | succ p =>
                rw [List.getElem?_cons_succ, ih hrest (Nat.lt_of_succ_lt_succ hp)]
                constructor
                · rintro ⟨j, other, rfl, hother, hnext⟩
                  exact ⟨j + 1, other, by omega, hother, by omega⟩
                · rintro ⟨_ | j, other, rfl, hother, hnext⟩
                  · obtain rfl : slot = other := by simpa using hother
                    omega
                  · exact ⟨j, other, by omega, hother, by omega⟩
          · next hslot =>
            have hahead := h.passed hslot
            cases p with
            | zero =>
                constructor
                · simp
                · rintro ⟨j, other, -, hother, hnext⟩
                  have hle := hahead.le other (List.mem_of_getElem? hother)
                  omega
            | succ p =>
                rw [List.getElem?_cons_succ, ih hahead (Nat.lt_of_succ_lt_succ hp),
                  Nat.add_right_comm, Nat.add_assoc]

/-- A walk that goes far enough takes every slot once, in order. -/
theorem filterMap_walk {next count : Nat} {slots : List Slot} (h : Ahead next slots)
    (hfar : ∀ slot ∈ slots, slot.identifier.toNat < next + count) (start : Nat) :
    (walk next start count slots).filterMap id = List.range' start slots.length := by
  induction count generalizing next start slots with
  | zero =>
      cases slots with
      | nil => rfl
      | cons slot rest =>
          have hlt := hfar slot List.mem_cons_self
          have hle := h.le slot List.mem_cons_self
          omega
  | succ count ih =>
      have hfar' : ∀ slot ∈ slots, slot.identifier.toNat < next + 1 + count := by
        intro slot hslot
        have hlt := hfar slot hslot
        omega
      cases slots with
      | nil => simpa [walk] using ih ⟨.nil, nofun⟩ nofun start
      | cons slot rest =>
          rw [walk]
          split
          · next hslot =>
            have hrest := ih (h.taken hslot) (List.forall_mem_cons.1 hfar').2 (start + 1)
            simpa [List.range'_succ] using hrest
          · next hslot => exact ih (h.passed hslot) hfar' start

/-- What a walk leaves empty and what it takes are all of its cells. -/
theorem countP_isNone_walk {next count : Nat} {slots : List Slot} (h : Ahead next slots)
    (hfar : ∀ slot ∈ slots, slot.identifier.toNat < next + count) (start : Nat) :
    (walk next start count slots).countP (·.isNone) + slots.length = count := by
  have htaken := congrArg List.length (filterMap_walk h hfar start)
  have hcells : (walk next start count slots).length = _ :=
    List.length_eq_countP_add_countP (·.isSome)
  simp only [List.length_filterMap_eq_countP, id, List.length_range'] at htaken
  simp only [length_walk, Bool.not_eq_true, Option.isSome_eq_false_iff,
    Bool.decide_eq_true] at hcells
  omega

/-- The positions of some slots, looked up one after the other, give the slots. -/
theorem filterMap_range'_getElem? (before slots : List Slot) :
    (List.range' before.length slots.length).filterMap ((before ++ slots)[·]?) = slots := by
  induction slots generalizing before with
  | nil => rfl
  | cons slot rest ih =>
      have hslot : (before ++ slot :: rest)[before.length]? = some slot := by simp
      have hrest := ih (before ++ [slot])
      rw [List.length_append, List.length_singleton, List.append_assoc,
        List.singleton_append] at hrest
      rw [List.length_cons, List.range'_succ, List.filterMap_cons_some hslot, hrest]

/-! ### The cells of a table -/

section Table

variable {mapping : Mapping} {limit : Nat} {plan : TablePlan}

/-- A cell holds the position of the slot whose identifier is as far from the smallest one as the
cell is from the first. -/
theorem Exact.getElem?_cells_eq_some_iff (h : Exact plan) (p i : Nat) :
    plan.cells[p]? = some (some i) ↔
      ∃ slot, plan.slots[i]? = some slot ∧ slot.identifier.toNat = plan.lo.toNat + p := by
  constructor
  · exact h.slot_of_cell p i
  · rintro ⟨slot, hslot, hp⟩
    have hle := h.lo_le slot (Array.mem_of_getElem? hslot)
    have hdistance : (slot.identifier - plan.lo).toNat = p := by
      rw [UInt32.toNat_sub_of_le _ _ hle, hp]
      omega
    rw [← hdistance]
    exact h.cell_of_slot i slot hslot

theorem ahead_slots (h : ofMapping mapping limit = .ok plan) :
    Ahead plan.lo.toNat plan.slots.toList := by
  have hlo := (exact_ofMapping h).lo_le
  rw [slots_ofMapping h] at hlo ⊢
  refine ⟨pairwise_lt_sortedSlots mapping, fun slot hslot => ?_⟩
  exact UInt32.le_iff_toNat_le.1 (hlo slot (by simpa using hslot))

theorem lt_of_mem_slots (h : ofMapping mapping limit = .ok plan) :
    ∀ slot ∈ plan.slots.toList, slot.identifier.toNat < plan.lo.toNat + plan.length := by
  intro slot hslot
  have hmem := Array.mem_def.2 hslot
  have hlt := (exact_ofMapping h).lt_size slot hmem
  rw [UInt32.toNat_sub_of_le _ _ ((exact_ofMapping h).lo_le slot hmem)] at hlt
  rw [length]
  omega

/-- Whether the slots are put into their cells one by one or taken along a walk over the range, the
table is the same. -/
theorem cells_eq_walk (h : ofMapping mapping limit = .ok plan) :
    plan.cells.toList = walk plan.lo.toNat 0 plan.length plan.slots.toList := by
  have hahead := ahead_slots h
  apply List.ext_getElem
  · rw [length_walk, Array.length_toList, length]
  · intro p hcell hwalk
    have hp : p < plan.length := by simpa using hwalk
    ext i
    have hcells := (exact_ofMapping h).getElem?_cells_eq_some_iff p i
    have hwalked := getElem?_walk_eq_some_iff hahead hp 0 i
    rw [← Array.getElem?_toList, List.getElem?_eq_getElem hcell, Option.some.injEq] at hcells
    rw [List.getElem?_eq_getElem hwalk, Option.some.injEq] at hwalked
    rw [hcells, hwalked]
    simp

/-- Along the positions of a table stand its slots, in order. -/
theorem filterMap_positions (h : ofMapping mapping limit = .ok plan) :
    plan.positions.filterMap id = plan.slots.toList := by
  calc plan.positions.filterMap id
    _ = (plan.cells.toList.filterMap id).filterMap (plan.slots.toList[·]?) := by
      rw [positions, List.filterMap_map, List.filterMap_filterMap]
      simp only [Function.id_comp, Array.getElem?_toList]
      rfl
    _ = (List.range' 0 plan.slots.toList.length).filterMap (plan.slots.toList[·]?) := by
      rw [cells_eq_walk h, filterMap_walk (ahead_slots h) (lt_of_mem_slots h)]
    _ = plan.slots.toList := filterMap_range'_getElem? [] plan.slots.toList

/-- The empty cells and the slots make up the table. -/
theorem gaps_add_size (h : ofMapping mapping limit = .ok plan) :
    plan.gaps + plan.slots.size = plan.length := by
  have hcells := countP_isNone_walk (ahead_slots h) (lt_of_mem_slots h) 0
  rw [← cells_eq_walk h] at hcells
  rw [gaps, ← Array.countP_toList]
  exact hcells

/-- A position holds the slot of its identifier. -/
theorem getElem?_positions_eq_some_iff (h : ofMapping mapping limit = .ok plan) {p : Nat}
    {slot : Slot} :
    plan.positions[p]? = some (some slot) ↔
      slot ∈ mapping.slots ∧ slot.identifier.toNat = plan.lo.toNat + p := by
  have hcells := (exact_ofMapping h).getElem?_cells_eq_some_iff p
  have hmem : slot ∈ mapping.slots ↔ slot ∈ plan.slots := by
    rw [slots_ofMapping h, List.mem_toArray, (sortedSlots_perm mapping).mem_iff]
  rw [positions, List.getElem?_map, Array.getElem?_toList, Option.map_eq_some_iff, hmem]
  constructor
  · rintro ⟨cell, hcell, hslot⟩
    obtain ⟨i, rfl, hi⟩ := Option.bind_eq_some_iff.1 hslot
    obtain ⟨found, hfound, hp⟩ := (hcells i).1 hcell
    obtain rfl : found = slot := Option.some.inj (hfound.symm.trans hi)
    exact ⟨Array.mem_of_getElem? hi, hp⟩
  · rintro ⟨hslot, hp⟩
    obtain ⟨i, hi⟩ := Array.getElem?_of_mem hslot
    exact ⟨some i, (hcells i).2 ⟨slot, hi, hp⟩, hi⟩

/-- A position of the table that holds no slot is empty. -/
theorem getElem?_positions_eq_none_iff {p : Nat} (hp : p < plan.length) :
    plan.positions[p]? = some none ↔ ∀ slot, plan.positions[p]? ≠ some (some slot) := by
  rw [List.getElem?_eq_getElem (by simpa using hp)]
  simp [Option.eq_none_iff_forall_ne_some]

/-! ### Laying out -/

variable {first last : Slot}

theorem spans_of_ends (hfirst : (sortedSlots mapping).head? = some first)
    (hlast : (sortedSlots mapping).getLast? = some last) :
    Mapping.Spans mapping.entries first.identifier last.identifier := by
  have hmem (slot : Slot) :
      slot ∈ sortedSlots mapping ↔ ∃ e ∈ mapping.entries, Slot.ofEntry e = slot := by
    rw [(sortedSlots_perm mapping).mem_iff, Mapping.mem_slots]
  constructor
  · constructor
    · obtain ⟨e, he, rfl⟩ := (hmem first).1 (List.mem_of_head? hfirst)
      exact ⟨e, he, rfl⟩
    · rintro _ ⟨e, he, rfl⟩
      exact head_le hfirst ((hmem _).2 ⟨e, he, rfl⟩)
  · constructor
    · obtain ⟨e, he, rfl⟩ := (hmem last).1 (List.mem_of_getLast? hlast)
      exact ⟨e, he, rfl⟩
    · rintro _ ⟨e, he, rfl⟩
      exact le_getLast hlast ((hmem _).2 ⟨e, he, rfl⟩)

theorem exists_of_span_le (hfirst : (sortedSlots mapping).head? = some first)
    (hlast : (sortedSlots mapping).getLast? = some last)
    (hlimit : span first.identifier last.identifier ≤ limit) :
    ∃ plan, ofMapping mapping limit = .ok plan := by
  simp only [ofMapping, hfirst, hlast, if_pos hlimit]
  exact ⟨_, rfl⟩

theorem ofMapping_of_lt_span (hfirst : (sortedSlots mapping).head? = some first)
    (hlast : (sortedSlots mapping).getLast? = some last)
    (hlimit : limit < span first.identifier last.identifier) :
    ofMapping mapping limit =
      .error (.tableTooLarge mapping.name (span first.identifier last.identifier) limit) := by
  simp only [ofMapping, hfirst, hlast, if_neg (Nat.not_le.2 hlimit)]

/-- A table begins at the first of the sorted slots and ends at the last. -/
theorem ends_of_ofMapping (h : ofMapping mapping limit = .ok plan)
    (hfirst : (sortedSlots mapping).head? = some first)
    (hlast : (sortedSlots mapping).getLast? = some last) :
    plan.lo = first.identifier ∧ plan.length = span first.identifier last.identifier := by
  obtain ⟨first', last', hfirst', hlast', -, rfl⟩ := ofMapping_eq_ok h
  obtain rfl : first' = first := Option.some.inj (hfirst'.symm.trans hfirst)
  obtain rfl : last' = last := Option.some.inj (hlast'.symm.trans hlast)
  simp [length]

/-- The table over a range of identifiers that belongs to some entries. -/
structure LaidOut (entries : List Entry) (lo hi : Identifier) (plan : TablePlan) : Prop where
  lo_eq : plan.lo = lo
  length_eq : plan.length = hi.toNat - lo.toNat + 1
  length_positions_eq : plan.positions.length = hi.toNat - lo.toNat + 1
  /-- A position holds the slot of the entry with its identifier. -/
  occupied : ∀ (p : Nat) (slot : Slot), plan.positions[p]? = some (some slot) ↔
    ∃ e ∈ entries, e.identifier.toNat = lo.toNat + p ∧ Slot.ofEntry e = slot
  /-- A position is empty if no entry has its identifier. -/
  empty : ∀ p < hi.toNat - lo.toNat + 1,
    (plan.positions[p]? = some none ↔ ∀ e ∈ entries, e.identifier.toNat ≠ lo.toNat + p)
  once : ∀ e ∈ entries, ∃! p : Nat, plan.positions[p]? = some (some (Slot.ofEntry e))
  first : ∃ slot, plan.positions.head? = some (some slot)
  last : ∃ slot, plan.positions.getLast? = some (some slot)
  gaps_add : plan.gaps + entries.length = hi.toNat - lo.toNat + 1
  /-- The largest identifier is computed without a carry out of its 32 bits. -/
  lo_add : plan.lo.toNat + (plan.length - 1) = hi.toNat
  hi_eq : plan.hi = hi

theorem laidOut_ofMapping {lo hi : Identifier} (hspans : Mapping.Spans mapping.entries lo hi)
    (h : ofMapping mapping limit = .ok plan) (hlo : plan.lo = lo)
    (hlength : plan.length = span lo hi) : LaidOut mapping.entries lo hi plan := by
  subst hlo
  rw [span] at hlength
  obtain ⟨⟨lowest, hlowest, hleast⟩, hle⟩ := hspans.least
  obtain ⟨highest, hhighest, hgreatest⟩ := hspans.greatest.1
  have hlohi := UInt32.le_iff_toNat_le.1 (hle ⟨highest, hhighest, hgreatest⟩)
  have hlo_add : plan.lo.toNat + (plan.length - 1) = hi.toNat := by omega
  have hoccupied (p : Nat) (slot : Slot) : plan.positions[p]? = some (some slot) ↔
      ∃ e ∈ mapping.entries, e.identifier.toNat = plan.lo.toNat + p ∧ Slot.ofEntry e = slot := by
    rw [getElem?_positions_eq_some_iff h, Mapping.mem_slots]
    constructor
    · rintro ⟨⟨e, he, rfl⟩, hp⟩
      exact ⟨e, he, hp, rfl⟩
    · rintro ⟨e, he, hp, rfl⟩
      exact ⟨⟨e, he, rfl⟩, hp⟩
  refine {
    lo_eq := rfl, length_eq := hlength, length_positions_eq := by rw [length_positions, hlength]
    occupied := hoccupied, lo_add := hlo_add
    empty := ?empty, once := ?once, first := ?first, last := ?last, gaps_add := ?gaps
    hi_eq := ?largest }
  case empty =>
    intro p hp
    rw [getElem?_positions_eq_none_iff (hlength ▸ hp)]
    simp only [ne_eq, hoccupied, not_exists, not_and]
    exact ⟨fun hnone e he hnumber => hnone _ e he hnumber rfl,
      fun hne _ e he hnumber _ => hne e he hnumber⟩
  case once =>
    intro e he
    have hlo := UInt32.le_iff_toNat_le.1 (hle ⟨e, he, rfl⟩)
    refine ⟨e.identifier.toNat - plan.lo.toNat, (hoccupied _ _).2 ⟨e, he, by omega, rfl⟩, ?_⟩
    intro p hp
    obtain ⟨e', -, hnumber, hslot⟩ := (hoccupied _ _).1 hp
    have hidentifier := congrArg (·.identifier.toNat) hslot
    simp only [Slot.ofEntry_identifier] at hidentifier
    omega
  case first =>
    rw [List.head?_eq_getElem?]
    exact ⟨_, (hoccupied _ _).2 ⟨lowest, hlowest, by rw [hleast]; rfl, rfl⟩⟩
  case last =>
    rw [List.getLast?_eq_getElem?, length_positions]
    exact ⟨_, (hoccupied _ _).2 ⟨highest, hhighest, by rw [hgreatest, hlo_add], rfl⟩⟩
  case gaps =>
    have hgaps := gaps_add_size h
    rw [slots_ofMapping h, List.size_toArray, (sortedSlots_perm mapping).length_eq,
      hlength] at hgaps
    simpa [Mapping.slots] using hgaps
  case largest =>
    have hhi := hi.toNat_lt
    apply UInt32.toNat_inj.1
    rw [TablePlan.hi, UInt32.toNat_add, UInt32.toNat_ofNat']
    omega

/-- The layout of a table. A mapping without entries has no table. Any other has one over the range
from its smallest identifier to its largest, unless the length of the range, which can be as much as
`2 ^ 32`, is over the limit. The table has a position for every identifier of the range, which holds
the slot of the entry with that identifier, or nothing without one. So each slot stands at one
position, neither end is empty, and the gaps are as many as the identifiers of the range without an
entry. -/
theorem layout_spans_entries {name : String} {entries : List Entry}
    (hmapping : Mapping.ofEntries name entries = .ok mapping) (limit : Nat) :
    (ofMapping mapping limit = .error (.emptyMapping name) ↔ entries = []) ∧
      (entries ≠ [] → ∃ lo hi, Mapping.Spans entries lo hi ∧
        (ofMapping mapping limit =
            .error (.tableTooLarge name (hi.toNat - lo.toNat + 1) limit) ↔
          limit < hi.toNat - lo.toNat + 1) ∧
        (hi.toNat - lo.toNat + 1 ≤ limit →
          ∃ plan, ofMapping mapping limit = .ok plan ∧ LaidOut entries lo hi plan)) := by
  obtain ⟨rfl, rfl⟩ := Mapping.ofEntries_eq_ok hmapping
  have hperm := sortedSlots_perm mapping
  by_cases hentries : mapping.entries = []
  · have hsorted : sortedSlots mapping = [] := by
      rw [Mapping.slots, hentries] at hperm
      exact hperm.eq_nil
    simp [ofMapping, hsorted, hentries]
  · have hsorted : sortedSlots mapping ≠ [] := by
      intro hnil
      rw [hnil, List.nil_perm] at hperm
      exact hentries (List.map_eq_nil_iff.1 hperm)
    have hfirst := List.head?_eq_some_head hsorted
    have hlast := List.getLast?_eq_some_getLast hsorted
    have hspans := spans_of_ends hfirst hlast
    rcases Nat.lt_or_ge limit (span _ _) with hlimit | hlimit
    · have herror := ofMapping_of_lt_span hfirst hlast hlimit
      rw [span] at herror hlimit
      refine ⟨by simp [herror, hentries], fun _ => ⟨_, _, hspans, by simp [herror, hlimit], ?_⟩⟩
      exact fun hle => absurd hle (Nat.not_le.2 hlimit)
    · obtain ⟨plan, hplan⟩ := exists_of_span_le hfirst hlast hlimit
      obtain ⟨hlo, hlength⟩ := ends_of_ofMapping hplan hfirst hlast
      rw [span] at hlimit
      refine ⟨by simp [hplan, hentries], fun _ => ⟨_, _, hspans, ?_, fun _ => ?_⟩⟩
      · rw [hplan]
        exact iff_of_false (by simp) (Nat.not_lt.2 hlimit)
      · exact ⟨plan, hplan, laidOut_ofMapping hspans hplan hlo hlength⟩

end Table

/-- Two handlers as far apart as identifiers can be. -/
def farApart : Mapping where
  name := "wide"
  entries := [⟨0xffffffff, "HighAnalyzer", 2⟩, ⟨0, "LowAnalyzer", 3⟩]
  name_isWordTail := by decide
  nodup_identifiers := by decide
  nodup_slotNames := by decide
  not_reserved := by decide

/-- Over the whole range of identifiers, a table is one position too long for a limit of `2 ^ 32 -
1`, and with one more its largest identifier is computed as it should be. -/
theorem layout_spans_farApart :
    Mapping.ofEntries "wide" farApart.entries = .ok farApart ∧
      ofMapping farApart 0xffffffff = .error (.tableTooLarge "wide" 0x100000000 0xffffffff) ∧
      ∃ plan, ofMapping farApart 0x100000000 = .ok plan ∧ plan.length = 0x100000000 ∧
        plan.gaps = 0xfffffffe ∧ plan.hi = 0xffffffff ∧ plan.positions[1]? = some none := by
  have hmapping := Mapping.ofEntries_self farApart
  have hne : farApart.entries ≠ [] := by decide
  have hspans {lo hi : Identifier} (h : Mapping.Spans farApart.entries lo hi) :
      lo = 0 ∧ hi = 0xffffffff := by
    have hlo := UInt32.le_iff_toNat_le.1 (h.least.2 ⟨⟨0, "LowAnalyzer", 3⟩, by decide, rfl⟩)
    have hhi := UInt32.le_iff_toNat_le.1
      (h.greatest.2 ⟨⟨0xffffffff, "HighAnalyzer", 2⟩, by decide, rfl⟩)
    have hbound := hi.toNat_lt
    exact ⟨UInt32.toNat_inj.1 (Nat.le_zero.1 hlo), UInt32.toNat_inj.1 (by simp at hhi ⊢; omega)⟩
  obtain ⟨lo, hi, hrange, herror, -⟩ := (layout_spans_entries hmapping 0xffffffff).2 hne
  obtain ⟨rfl, rfl⟩ := hspans hrange
  obtain ⟨lo, hi, hrange, -, hok⟩ := (layout_spans_entries hmapping 0x100000000).2 hne
  obtain ⟨rfl, rfl⟩ := hspans hrange
  obtain ⟨plan, hplan, hlaid⟩ := hok (by decide)
  refine ⟨hmapping, herror.2 (by decide), plan, hplan, hlaid.length_eq, ?_, hlaid.hi_eq, ?_⟩
  · have hgaps : plan.gaps + 2 = 0x100000000 := hlaid.gaps_add
    omega
  · exact (hlaid.empty 1 (by decide)).2 (by decide)

end TablePlan

end Switchboard
