import Switchboard.Proofs.Generated.DumpOrder
import Switchboard.Proofs.Mapping.Printing

/-!
What a generated class tells of its mapping. The fields of a class are `T s;` lines, and in the name
`s` nothing marks where the type name ends and the digits of the identifier begin. But the type name
stands on the line as well, with a blank behind it, and in lower case it is what the name begins with.
So each line gives back the pair it was written for, and the interface unit alone gives back the pairs
of the mapping in the order in which the strategy declares them.

In the other direction, a plan depends on nothing but the name of the mapping and its slots in that
order. A table sorts them by identifiers that do not repeat, which leaves one order for all
permutations.
-/

namespace Switchboard

/-! ### Plans -/

namespace TablePlan

/-- Sorting by identifiers that do not repeat leaves nothing of the order before. -/
theorem sortedSlots_eq_of_perm {mapping mapping' : Mapping}
    (h : mapping.slots.Perm mapping'.slots) : sortedSlots mapping = sortedSlots mapping' := by
  have hperm : (sortedSlots mapping).Perm (sortedSlots mapping') :=
    (sortedSlots_perm mapping).trans (h.trans (sortedSlots_perm mapping').symm)
  refine hperm.eq_of_pairwise ?_ (pairwise_lt_sortedSlots mapping) (pairwise_lt_sortedSlots mapping')
  intro a b _ _ hab hba
  exact absurd hba (UInt32.lt_asymm hab)

end TablePlan

/-- The strategies that keep the order of the file. -/
theorem Plan.orderedSlots_of_ne_array {strategy : Strategy} (h : strategy ≠ .array)
    (mapping : Mapping) : orderedSlots strategy mapping = mapping.slots := by
  cases strategy with
  | switch => rfl
  | chain => rfl
  | array => contradiction

namespace Mapping

/-- The slot that is named after a pair. -/
def slotOfPair (pair : Identifier × String) : Slot where
  identifier := pair.1
  typeName := pair.2
  name := SlotName.of pair.2 pair.1

/-- The pair that a slot is for. -/
def pairOfSlot (slot : Slot) : Identifier × String :=
  (slot.identifier, slot.typeName)

variable {mapping mapping' : Mapping}

theorem slots_eq_map_rowPairs (mapping : Mapping) :
    mapping.slots = mapping.rowPairs.map slotOfPair := by
  rw [slots, rowPairs, List.map_map]
  rfl

theorem rowPairs_eq_map_slots (mapping : Mapping) :
    mapping.rowPairs = mapping.slots.map pairOfSlot := by
  rw [slots, rowPairs, List.map_map]
  rfl

theorem slots_eq_of_rowPairs_eq (h : mapping.rowPairs = mapping'.rowPairs) :
    mapping.slots = mapping'.slots := by
  rw [slots_eq_map_rowPairs, slots_eq_map_rowPairs, h]

theorem slots_perm_of_rowPairs_perm (h : mapping.rowPairs.Perm mapping'.rowPairs) :
    mapping.slots.Perm mapping'.slots := by
  rw [slots_eq_map_rowPairs, slots_eq_map_rowPairs]
  exact h.map slotOfPair

end Mapping

theorem Artifact.exists_emit_of_ne_array {strategy : Strategy} (h : strategy ≠ .array)
    (mapping : Mapping) (config : Config) :
    ∃ artifact, emit mapping strategy config = .ok artifact := by
  cases strategy with
  | switch => exact ⟨_, rfl⟩
  | chain => exact ⟨_, rfl⟩
  | array => contradiction

/-- An artifact depends on the name of the mapping and on its slots as the strategy orders them. -/
theorem Artifact.emit_congr {mapping mapping' : Mapping} (strategy : Strategy)
    (hname : mapping.name = mapping'.name)
    (hslots : Plan.orderedSlots strategy mapping = Plan.orderedSlots strategy mapping')
    (config : Config) : emit mapping strategy config = emit mapping' strategy config := by
  have hplan : Plan.ofMapping strategy mapping config = Plan.ofMapping strategy mapping' config := by
    cases strategy with
    | switch =>
        have hslots' : mapping.slots = mapping'.slots := hslots
        simp only [Plan.ofMapping, SwitchPlan.ofMapping, hslots']
    | chain =>
        have hslots' : mapping.slots = mapping'.slots := hslots
        simp only [Plan.ofMapping, ChainPlan.ofMapping, hslots']
    | array =>
        have hslots' : TablePlan.sortedSlots mapping = TablePlan.sortedSlots mapping' := hslots
        simp only [Plan.ofMapping, TablePlan.ofMapping, hslots', hname]
  rw [emit, emit, hplan, hname]

namespace Generated

open Mapping (pairOfSlot)

/-! ### Fields read back -/

/-- The identifier and the type name that a field stands for. The type name ends at the blank, and in
front of the digits it stands again in lower case. -/
def fieldPair? (text : String) : Option (Identifier × String) :=
  let typeName := String.ofList (text.toList.takeWhile (· != ' '))
  (between? (typeName ++ " " ++ Text.lowercase typeName) ";" text.toList).bind fun digits =>
    (Text.hexValue? digits).map fun n => (UInt32.ofNat n, typeName)

/-- The pairs of all fields that a class declares. -/
def pairs? (interface : List Code) : Option (List (Identifier × String)) :=
  (fields? interface).bind (·.mapM fieldPair?)

theorem fieldPair?_declared {e : Entry} (htype : ' ' ∉ e.typeName.toList) :
    fieldPair? (declared (Slot.ofEntry e)) = some (e.identifier, e.typeName) := by
  have hline : (declared (Slot.ofEntry e)).toList =
      (e.typeName ++ " " ++ Text.lowercase e.typeName).toList ++
        (e.identifier.hex.toList ++ ";".toList) := by
    simp [declared, Slot.ofEntry, SlotName.ofEntry, Identifier.hex]
  have hbefore : ∀ c ∈ e.typeName.toList, (c != ' ') = true := by
    intro c hc
    simpa using ne_of_mem_of_not_mem hc htype
  have hname : (declared (Slot.ofEntry e)).toList.takeWhile (· != ' ') = e.typeName.toList := by
    rw [hline, String.toList_append, String.toList_append, List.append_assoc, List.append_assoc,
      List.takeWhile_append_of_pos hbefore]
    simp
  have hdigits : Text.hexValue? e.identifier.hex.toList = some e.identifier.toNat :=
    Text.hexValue?_hex e.identifier.toNat
  simp only [fieldPair?, hname, String.ofList_toList]
  rw [hline, between?_append, Option.bind_some, hdigits, Option.map_some, UInt32.ofNat_toNat]

/-- One slot name, of which the digits begin in two places. -/
example : fieldPair? "A1 a11;" = some (0x1, "A1") ∧ fieldPair? "A a11;" = some (0x11, "A") := by
  decide

/-! ### What units determine -/

section Contract

variable {name source source' : String} {readConfig readConfig' config : Config}
  {mapping mapping' : Mapping} {strategy : Strategy} {artifact artifact' : Artifact}

/-- Both units of two artifacts are the same. -/
def SameUnits (artifact artifact' : Artifact) : Prop :=
  artifact.interface = artifact'.interface ∧ artifact.implementation = artifact'.implementation

/-- The interface unit tells the pairs of the mapping, as the strategy orders them. -/
theorem pairs?_of_emit (hmapping : Mapping.ofSource name source readConfig = .ok mapping)
    (hemit : Artifact.emit mapping strategy config = .ok artifact) :
    pairs? artifact.interface = some ((Plan.orderedSlots strategy mapping).map pairOfSlot) := by
  obtain ⟨plan, hplan, rfl⟩ := Except.map_eq_ok_iff.1 hemit
  have hfield : ∀ slot ∈ plan.slots.toList, fieldPair? (declared slot) = some (pairOfSlot slot) := by
    intro slot hslot
    have hmem := (Plan.mem_slots hplan).1 (Array.mem_def.2 hslot)
    have htype := (blank_not_mem_of_ofSource hmapping slot hmem).1
    obtain ⟨e, -, rfl⟩ := Mapping.mem_slots.1 hmem
    exact fieldPair?_declared htype
  rw [pairs?]
  simp only [Artifact.ofPlan]
  rw [fields?_interfaceUnit, Option.bind_some, mapM_map_eq_some hfield, Plan.slots_ofMapping hplan]

theorem orderedSlots_pairs_perm (strategy : Strategy) (mapping : Mapping) :
    ((Plan.orderedSlots strategy mapping).map pairOfSlot).Perm mapping.rowPairs := by
  rw [Mapping.rowPairs_eq_map_slots]
  exact (Plan.orderedSlots_perm strategy mapping).map pairOfSlot

/-- Equal interface units come from the same pairs, whatever order they have in the texts. -/
theorem rowPairs_perm_of_interface_eq
    (hmapping : Mapping.ofSource name source readConfig = .ok mapping)
    (hmapping' : Mapping.ofSource name source' readConfig' = .ok mapping')
    (hemit : Artifact.emit mapping strategy config = .ok artifact)
    (hemit' : Artifact.emit mapping' strategy config = .ok artifact')
    (h : artifact.interface = artifact'.interface) : mapping.rowPairs.Perm mapping'.rowPairs := by
  have hpairs := (pairs?_of_emit hmapping hemit).symm.trans
    ((congrArg pairs? h).trans (pairs?_of_emit hmapping' hemit'))
  have hperm := (orderedSlots_pairs_perm strategy mapping).symm
  rw [Option.some.inj hpairs] at hperm
  exact hperm.trans (orderedSlots_pairs_perm strategy mapping')

/-- What the units of a class determine, and what determines them. Take two mappings that are read
under one name. Under the strategies that keep the order of the file their units are the same exactly
if their pairs of an identifier and a type name are the same in the same order. A table does not know
that order: if the pairs of one mapping are a permutation of those of the other, both have one table
class or are refused with one fault, and if both have a class, its units are the same in no other
case. No strategy gives one interface unit to two mappings with different sets of pairs. -/
theorem units_eq_iff (hmapping : Mapping.ofSource name source readConfig = .ok mapping)
    (hmapping' : Mapping.ofSource name source' readConfig' = .ok mapping') (config : Config) :
    (∀ strategy, strategy ≠ .array → ∃ artifact artifact',
      Artifact.emit mapping strategy config = .ok artifact ∧
      Artifact.emit mapping' strategy config = .ok artifact' ∧
      (SameUnits artifact artifact' ↔ mapping.rowPairs = mapping'.rowPairs)) ∧
    (∀ artifact artifact', Artifact.emit mapping .array config = .ok artifact →
      Artifact.emit mapping' .array config = .ok artifact' →
      (SameUnits artifact artifact' ↔ mapping.rowPairs.Perm mapping'.rowPairs)) ∧
    (mapping.rowPairs.Perm mapping'.rowPairs →
      Artifact.emit mapping .array config = Artifact.emit mapping' .array config) ∧
    ∀ strategy artifact artifact', Artifact.emit mapping strategy config = .ok artifact →
      Artifact.emit mapping' strategy config = .ok artifact' →
      artifact.interface = artifact'.interface →
      ∀ pair, pair ∈ mapping.rowPairs ↔ pair ∈ mapping'.rowPairs := by
  have hname : mapping.name = mapping'.name :=
    (Mapping.ofSource_eq_ok hmapping).1.trans (Mapping.ofSource_eq_ok hmapping').1.symm
  have htable (h : mapping.rowPairs.Perm mapping'.rowPairs) :
      Artifact.emit mapping .array config = Artifact.emit mapping' .array config :=
    Artifact.emit_congr .array hname
      (TablePlan.sortedSlots_eq_of_perm (Mapping.slots_perm_of_rowPairs_perm h)) config
  refine ⟨?_, ?_, htable, ?_⟩
  · intro strategy hstrategy
    obtain ⟨artifact, hemit⟩ := Artifact.exists_emit_of_ne_array hstrategy mapping config
    obtain ⟨artifact', hemit'⟩ := Artifact.exists_emit_of_ne_array hstrategy mapping' config
    refine ⟨artifact, artifact', hemit, hemit', fun h => ?_, fun h => ?_⟩
    · have hpairs := (pairs?_of_emit hmapping hemit).symm.trans
        ((congrArg pairs? h.1).trans (pairs?_of_emit hmapping' hemit'))
      rw [Plan.orderedSlots_of_ne_array hstrategy, Plan.orderedSlots_of_ne_array hstrategy,
        ← Mapping.rowPairs_eq_map_slots, ← Mapping.rowPairs_eq_map_slots] at hpairs
      exact Option.some.inj hpairs
    · have hslots : Plan.orderedSlots strategy mapping = Plan.orderedSlots strategy mapping' := by
        rw [Plan.orderedSlots_of_ne_array hstrategy, Plan.orderedSlots_of_ne_array hstrategy]
        exact Mapping.slots_eq_of_rowPairs_eq h
      rw [Artifact.emit_congr strategy hname hslots, hemit'] at hemit
      cases hemit
      exact ⟨rfl, rfl⟩
  · intro artifact artifact' hemit hemit'
    refine ⟨fun h => ?_, fun h => ?_⟩
    · exact rowPairs_perm_of_interface_eq hmapping hmapping' hemit hemit' h.1
    · rw [htable h, hemit'] at hemit
      cases hemit
      exact ⟨rfl, rfl⟩
  · intro strategy artifact artifact' hemit hemit' h pair
    exact (rowPairs_perm_of_interface_eq hmapping hmapping' hemit hemit' h).mem_iff

/-- The three protocols on lines that ascend. -/
def ascendingProtocols : Mapping where
  name := "ip"
  entries := [⟨1, "ICMPAnalyzer", 2⟩, ⟨6, "TCPAnalyzer", 3⟩, ⟨0x11, "UDPAnalyzer", 4⟩]
  name_isWordTail := Mapping.ipProtocols.name_isWordTail
  nodup_identifiers := by decide
  nodup_slotNames := by decide
  not_reserved := by decide

/-- Two texts with the same three protocols, not in the same order: one table, but not one chain. -/
theorem units_eq_ipProtocols :
    Mapping.ofSource "ip" Mapping.ipProtocolsText {} = .ok Mapping.ipProtocols ∧
      Mapping.ofSource "ip" "protocols\n1 ICMPAnalyzer\n6 TCPAnalyzer\n11 UDPAnalyzer\n" {} =
        .ok ascendingProtocols ∧
      (∃ artifact, Artifact.emit Mapping.ipProtocols .array {} = .ok artifact ∧
        Artifact.emit ascendingProtocols .array {} = .ok artifact) ∧
      ∃ artifact artifact', Artifact.emit Mapping.ipProtocols .chain {} = .ok artifact ∧
        Artifact.emit ascendingProtocols .chain {} = .ok artifact' ∧
        ¬ SameUnits artifact artifact' := by
  have hread : Mapping.readEntries ascendingProtocols.name
      "protocols\n1 ICMPAnalyzer\n6 TCPAnalyzer\n11 UDPAnalyzer\n" {} =
        .ok ascendingProtocols.entries := by rfl
  have hmapping := Mapping.ofSource_ipProtocolsText
  have hmapping' := Mapping.ofSource_of_readEntries hread
  obtain ⟨hordered, -, htable, -⟩ := units_eq_iff hmapping hmapping' {}
  obtain ⟨artifact, hemit⟩ := emit_ipProtocols
  obtain ⟨chain, chain', hchain, hchain', hunits⟩ := hordered .chain nofun
  refine ⟨hmapping, hmapping', ⟨artifact, hemit, ?_⟩, chain, chain', hchain, hchain', ?_⟩
  · rw [← htable (by decide), hemit]
  · rw [hunits]
    decide

end Contract

end Generated

end Switchboard
