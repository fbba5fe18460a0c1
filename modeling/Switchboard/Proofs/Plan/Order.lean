import Mathlib.Data.List.Nodup
import Switchboard.Plan
import Switchboard.Proofs.Mapping.Accepted

/-!
The slots of a plan. Whatever the strategy, a plan has the slots of its mapping and no others: a
switch and a chain keep them in file order, a table puts them in strictly ascending order of the
identifiers. Strictness is what the checks on a mapping buy, since sorting alone would leave room for
equal neighbours.
-/

namespace Switchboard

namespace Mapping

theorem map_identifier_slots (mapping : Mapping) :
    mapping.slots.map (·.identifier) = mapping.entries.map (·.identifier) := by
  simp [slots]

theorem nodup_slots_identifiers (mapping : Mapping) :
    (mapping.slots.map (·.identifier)).Nodup := by
  rw [map_identifier_slots]
  exact mapping.nodup_identifiers

theorem mem_slots {mapping : Mapping} {slot : Slot} :
    slot ∈ mapping.slots ↔ ∃ e ∈ mapping.entries, Slot.ofEntry e = slot := by
  simp [slots]

end Mapping

namespace TablePlan

variable {mapping : Mapping} {limit : Nat} {plan : TablePlan}

theorem sortedSlots_perm (mapping : Mapping) : (sortedSlots mapping).Perm mapping.slots :=
  List.mergeSort_perm _ _

theorem pairwise_le_sortedSlots (mapping : Mapping) :
    (sortedSlots mapping).Pairwise fun a b => a.identifier ≤ b.identifier := by
  have htrans (a b c : Slot) (hab : decide (a.identifier ≤ b.identifier))
      (hbc : decide (b.identifier ≤ c.identifier)) : decide (a.identifier ≤ c.identifier) := by
    rw [decide_eq_true_eq] at *
    exact UInt32.le_trans hab hbc
  have htotal (a b : Slot) :
      decide (a.identifier ≤ b.identifier) || decide (b.identifier ≤ a.identifier) := by
    simpa using UInt32.le_total a.identifier b.identifier
  have h := List.pairwise_mergeSort htrans htotal mapping.slots
  simpa [sortedSlots] using h

theorem nodup_sortedSlots_identifiers (mapping : Mapping) :
    ((sortedSlots mapping).map (·.identifier)).Nodup :=
  ((sortedSlots_perm mapping).map _).nodup_iff.2 mapping.nodup_slots_identifiers

/-- Sorted by identifiers that do not repeat, slots ascend strictly. -/
theorem pairwise_lt_sortedSlots (mapping : Mapping) :
    (sortedSlots mapping).Pairwise fun a b => a.identifier < b.identifier := by
  have hnodup := nodup_sortedSlots_identifiers mapping
  rw [List.Nodup, List.pairwise_map] at hnodup
  refine (pairwise_le_sortedSlots mapping).imp₂ ?_ hnodup
  intro a b hle hne
  exact UInt32.lt_of_le_of_ne hle hne

/-- Everything that is known of a table that could be laid out: the first and the last of the sorted
slots, between which it spans, and a length within the limit. -/
theorem ofMapping_eq_ok (h : ofMapping mapping limit = .ok plan) :
    ∃ first last,
      (sortedSlots mapping).head? = some first ∧ (sortedSlots mapping).getLast? = some last ∧
      span first.identifier last.identifier ≤ limit ∧
      plan = {
        lo := first.identifier
        slots := (sortedSlots mapping).toArray
        cells := place first.identifier 0
          (Array.replicate (span first.identifier last.identifier) none) (sortedSlots mapping) } := by
  unfold ofMapping at h
  simp only at h
  split at h
  · next first last hfirst hlast =>
    split at h
    · next hlimit =>
      cases h
      exact ⟨first, last, hfirst, hlast, hlimit, rfl⟩
    · cases h
  · cases h

theorem slots_ofMapping (h : ofMapping mapping limit = .ok plan) :
    plan.slots = (sortedSlots mapping).toArray := by
  obtain ⟨first, last, _, _, _, rfl⟩ := ofMapping_eq_ok h
  rfl

/-- No slot has an identifier below the first one. -/
theorem head_le {first : Slot} (hfirst : (sortedSlots mapping).head? = some first) {slot : Slot}
    (hslot : slot ∈ sortedSlots mapping) : first.identifier ≤ slot.identifier := by
  have hsorted := pairwise_le_sortedSlots mapping
  obtain ⟨rest, hrest⟩ := List.head?_eq_some_iff.1 hfirst
  rw [hrest] at hslot hsorted
  rcases List.mem_cons.1 hslot with rfl | hmem
  · exact UInt32.le_refl _
  · exact List.rel_of_pairwise_cons hsorted hmem

/-- No slot has an identifier above the last one. -/
theorem le_getLast {last : Slot} (hlast : (sortedSlots mapping).getLast? = some last) {slot : Slot}
    (hslot : slot ∈ sortedSlots mapping) : slot.identifier ≤ last.identifier := by
  have hsorted := pairwise_le_sortedSlots mapping
  obtain ⟨before, hbefore⟩ := List.getLast?_eq_some_iff.1 hlast
  rw [hbefore] at hslot hsorted
  rcases List.mem_append.1 hslot with hmem | hmem
  · exact (List.pairwise_append.1 hsorted).2.2 slot hmem last List.mem_cons_self
  · rw [List.mem_singleton.1 hmem]
    exact UInt32.le_refl _

/-- A table can be laid out when there is a slot and no two slots are too far apart. -/
theorem exists_ofMapping (hne : mapping.slots ≠ [])
    (hlimit : ∀ a ∈ mapping.slots, ∀ b ∈ mapping.slots,
      span a.identifier b.identifier ≤ limit) : ∃ plan, ofMapping mapping limit = .ok plan := by
  have hperm := sortedSlots_perm mapping
  have hsorted : sortedSlots mapping ≠ [] := by
    intro hnil
    rw [hnil, List.nil_perm] at hperm
    exact hne hperm
  have hfirst := List.head?_eq_some_head hsorted
  have hlast := List.getLast?_eq_some_getLast hsorted
  have hspan := hlimit _ (hperm.subset (List.head_mem hsorted)) _
    (hperm.subset (List.getLast_mem hsorted))
  unfold ofMapping
  simp only [hfirst, hlast, if_pos hspan]
  exact ⟨_, rfl⟩

end TablePlan

namespace Plan

variable {strategy : Strategy} {mapping : Mapping} {config : Config} {plan : Plan}

/-- The slots of a mapping in the order in which a strategy declares them. -/
def orderedSlots : Strategy → Mapping → List Slot
  | .switch, mapping | .chain, mapping => mapping.slots
  | .array, mapping => TablePlan.sortedSlots mapping

/-- A plan is the layout of its strategy, and only the one of a table may not exist. -/
theorem ofMapping_eq_ok (h : ofMapping strategy mapping config = .ok plan) :
    (strategy = .switch ∧ plan = switch (SwitchPlan.ofMapping mapping)) ∨
      (strategy = .chain ∧ plan = chain (ChainPlan.ofMapping mapping)) ∨
      ∃ table, strategy = .array ∧ TablePlan.ofMapping mapping config.tableLimit = .ok table ∧
        plan = array table := by
  cases strategy with
  | switch => cases h; exact .inl ⟨rfl, rfl⟩
  | chain => cases h; exact .inr (.inl ⟨rfl, rfl⟩)
  | array =>
      obtain ⟨table, htable, rfl⟩ := Except.map_eq_ok_iff.1 h
      exact .inr (.inr ⟨table, rfl, htable, rfl⟩)

theorem strategy_ofMapping (h : ofMapping strategy mapping config = .ok plan) :
    plan.strategy = strategy := by
  obtain ⟨rfl, rfl⟩ | ⟨rfl, rfl⟩ | ⟨table, rfl, _, rfl⟩ := ofMapping_eq_ok h <;> rfl

theorem slots_ofMapping (h : ofMapping strategy mapping config = .ok plan) :
    plan.slots = (orderedSlots strategy mapping).toArray := by
  obtain ⟨rfl, rfl⟩ | ⟨rfl, rfl⟩ | ⟨table, rfl, htable, rfl⟩ := ofMapping_eq_ok h
  · rfl
  · rfl
  · exact TablePlan.slots_ofMapping htable

theorem orderedSlots_perm (strategy : Strategy) (mapping : Mapping) :
    (orderedSlots strategy mapping).Perm mapping.slots := by
  cases strategy with
  | switch => exact List.Perm.refl _
  | chain => exact List.Perm.refl _
  | array => exact TablePlan.sortedSlots_perm mapping

/-- However they are ordered, no two slots have one identifier. -/
theorem nodup_orderedSlots_identifiers (strategy : Strategy) (mapping : Mapping) :
    ((orderedSlots strategy mapping).map (·.identifier)).Nodup :=
  ((orderedSlots_perm strategy mapping).map _).nodup_iff.2 mapping.nodup_slots_identifiers

theorem ofMapping_ipProtocols : ∃ plan, ofMapping .array Mapping.ipProtocols {} = .ok plan := by
  have hne : Mapping.ipProtocols.slots ≠ [] := by decide
  have hlimit : ∀ a ∈ Mapping.ipProtocols.slots, ∀ b ∈ Mapping.ipProtocols.slots,
      TablePlan.span a.identifier b.identifier ≤ standardTableLimit := by decide
  obtain ⟨table, htable⟩ := TablePlan.exists_ofMapping hne hlimit
  refine ⟨array table, ?_⟩
  rw [ofMapping]
  exact congrArg (Except.map array) htable

end Plan

end Switchboard
