import Switchboard.Proofs.Generated.Reading
import Switchboard.Proofs.Plan.Lookup

/-!
The generated `lookup` functions implement their plans. A switch and a chain answer with the first of
their slots that has the identifier, and on the slots of a mapping that is the slot the plan finds. A
table answers from the cell at the distance from its first identifier. That distance is negative below
the table, so the signed index and the two tests of its bounds do what the plan does by comparing
before it subtracts.
-/

namespace Switchboard

namespace Generated

open TablePlan (length_positions)

/-- The first slot with an identifier. -/
abbrev firstAt (slots : List Slot) (x : Identifier) : Option Slot :=
  slots.find? (·.identifier == x)

/-- The value behind the label or the test of a slot. -/
def valueOf : Option Slot → Expression
  | some slot => .address slot.name.text
  | none => .null

namespace Frame

variable (frame : Frame) (slots : List Slot)

@[simp] theorem evaluate_valueOf (slot? : Option Slot) :
    frame.evaluate (valueOf slot?) = .ok (pointerTo slot?) := by
  cases slot? <;> rfl

/-! ### Switches -/

theorem nodup_labels (hnodup : (slots.map (·.identifier)).Nodup) :
    ((slots.map sectionOf ++ [defaultSection]).map (·.1)).Nodup := by
  have hlabels : (slots.map sectionOf).map (·.1) =
      (slots.map (·.identifier)).map fun x => Label.number x.toNat := by
    simp [sectionOf]
  rw [List.map_append, List.nodup_append, hlabels]
  refine ⟨hnodup.map fun a b hab => ?_, by simp, by simp [defaultSection]⟩
  rw [Label.number.injEq] at hab
  exact UInt32.toNat_inj.1 hab

/-- A switch is entered at the first of its cases that has the identifier, else at its default. -/
theorem entered_sections :
    ((frame.entered (slots.map sectionOf ++ [defaultSection])).flatMap (·.2)).head? =
      some (valueOf (firstAt slots frame.identifier)) := by
  have hlabel (slot : Slot) : (sectionOf slot).1 != .number frame.identifier.toNat ↔
      slot.identifier ≠ frame.identifier := by
    simp [sectionOf, UInt32.toNat_inj]
  cases hfirst : firstAt slots frame.identifier with
  | some slot =>
      obtain ⟨heq, before, behind, rfl, hbefore⟩ := List.find?_eq_some_iff_append.1 hfirst
      have hskip : ∀ entry ∈ before.map sectionOf, entry.1 != .number frame.identifier.toNat := by
        intro entry hentry
        obtain ⟨other, hother, rfl⟩ := List.mem_map.1 hentry
        rw [hlabel]
        simpa using hbefore other hother
      have hstop : ¬(sectionOf slot).1 != .number frame.identifier.toNat := by
        rw [hlabel]
        simpa using heq
      rw [entered, List.map_append, List.append_assoc, List.dropWhile_append_of_pos hskip,
        List.map_cons, List.cons_append,
        List.dropWhile_cons_of_neg (p := fun entry : Section => entry.1 != _) hstop]
      rfl
  | none =>
      have hskip : ∀ entry ∈ slots.map sectionOf, entry.1 != .number frame.identifier.toNat := by
        intro entry hentry
        obtain ⟨slot, hslot, rfl⟩ := List.mem_map.1 hentry
        rw [hlabel]
        simpa using List.find?_eq_none.1 hfirst slot hslot
      -- No case is entered, and the second pass skips them all on its way to the default.
      have hskip' : ∀ entry ∈ slots.map sectionOf, entry.1 != .default := by
        intro entry hentry
        obtain ⟨slot, -, rfl⟩ := List.mem_map.1 hentry
        simp [sectionOf]
      rw [entered, List.dropWhile_append_of_pos hskip, List.dropWhile_append_of_pos hskip']
      rfl

theorem run_switch (hnodup : (slots.map (·.identifier)).Nodup) :
    frame.run [.switch (slots.map sectionOf ++ [defaultSection])] =
      .ok (pointerTo (firstAt slots frame.identifier)) := by
  rw [run, if_pos (nodup_labels slots hnodup), entered_sections]
  exact evaluate_valueOf frame _

/-! ### Chains -/

theorem allHold_identifierIs (slot : Slot) :
    frame.allHold [.identifierIs slot.identifier.toNat] =
      .ok (slot.identifier == frame.identifier) := by
  by_cases h : slot.identifier = frame.identifier
  · simp [allHold, holds, h]
  · have hnat : frame.identifier.toNat ≠ slot.identifier.toNat := by
      intro heq
      exact h (UInt32.toNat_inj.1 heq.symm)
    have hfalse : (frame.identifier.toNat == slot.identifier.toNat) = false := by
      simpa using hnat
    have hfalse' : (slot.identifier == frame.identifier) = false := by
      simpa using h
    rw [allHold, holds, hfalse, hfalse']

/-- A chain answers with the first of its slots that has the identifier. -/
theorem choose_arms :
    frame.choose (slots.map armOf) =
      .ok ((firstAt slots frame.identifier).map fun slot => .address slot.name.text) := by
  induction slots with
  | nil => rfl
  | cons slot rest ih =>
      rw [List.map_cons, armOf, choose, allHold_identifierIs, firstAt, List.find?_cons]
      cases slot.identifier == frame.identifier with
      | true => rfl
      | false => exact ih

theorem run_chain :
    frame.run (chainStatements slots) = .ok (pointerTo (firstAt slots frame.identifier)) := by
  cases slots with
  | nil => rfl
  | cons slot rest =>
      rw [chainStatements, run, choose_arms]
      · cases firstAt (slot :: rest) frame.identifier <;> rfl
      · simp

/-! ### Tables -/

/-- The guard of a table. -/
def guard (length : Nat) : List Arm :=
  [([.indexNotNegative, .indexBelow length, .cellNotNull], [.cell])]

variable {table : Table} {x : Identifier}

theorem readCell_of_lt {p : Nat} (h : p < table.length) :
    readCell ⟨some table, x, some (p : Int)⟩ = .ok (table.cells[p]?.getD .null) := by
  have hbounds : (0 : Int) ≤ p ∧ (p : Int) < table.length := by omega
  rw [readCell]
  simp only [hbounds, and_self, if_true, Int.toNat_natCast]

theorem allHold_guard {p : Nat} (h : p < table.length) :
    allHold ⟨some table, x, some (p : Int)⟩
        [.indexNotNegative, .indexBelow table.length, .cellNotNull] =
      .ok (table.cells[p]?.getD .null != .null) := by
  have hbelow : (p : Int) < table.length := by omega
  simp only [allHold, holds, readCell_of_lt h, hbelow, Except.map, Int.natCast_nonneg,
    decide_true]
  cases table.cells[p]?.getD .null != .null <;> rfl

/-- Inside the table, the guard lets through what is not null. -/
theorem run_guard_of_lt {p : Nat} (h : p < table.length) :
    run ⟨some table, x, some (p : Int)⟩ [.chain (guard table.length), .answer .null] =
      .ok (table.cells[p]?.getD .null) := by
  have hcell := readCell_of_lt (x := x) h
  rw [run, guard, choose, allHold_guard h]
  cases hpointer : table.cells[p]?.getD .null with
  | null => rfl
  | member name =>
      rw [hpointer] at hcell
      exact hcell

/-- Outside the table, the guard stops before a cell is read. -/
theorem run_guard_of_not {index : Int} (h : ¬(0 ≤ index ∧ index < table.length)) :
    run ⟨some table, x, some index⟩ [.chain (guard table.length), .answer .null] = .ok .null := by
  by_cases hneg : 0 ≤ index
  · have hbelow : ¬index < table.length := fun hlt => h ⟨hneg, hlt⟩
    simp [run, choose, guard, allHold, holds, hneg, hbelow, evaluate]
  · simp [run, choose, guard, allHold, holds, hneg, evaluate]

end Frame

/-- The slot that a table finds stands in the cell at the distance from the first identifier. -/
theorem lookup_array (plan : TablePlan) (x : Identifier) :
    Plan.lookup (.array plan) x =
      if plan.lo ≤ x then (plan.positions[x.toNat - plan.lo.toNat]?).join else none := by
  rw [Plan.lookup, Plan.find?, TablePlan.find?]
  by_cases hlo : plan.lo ≤ x
  · rw [if_pos hlo, if_neg (UInt32.not_lt.2 hlo), ← UInt32.toNat_sub_of_le _ _ hlo]
    simp only [TablePlan.positions]
    split
    · next hsize =>
      simp [hsize]
      rfl
    · next hsize =>
      simp [Array.getElem?_eq_none (Nat.le_of_not_lt hsize)]
  · rw [if_neg hlo, if_pos (UInt32.not_le.1 hlo), Option.bind_none]

theorem run_table (plan : TablePlan) (x : Identifier) :
    Frame.run ⟨tableOf (.array plan), x, none⟩ (bodyOf (.array plan)) =
      .ok (pointerTo (Plan.lookup (.array plan) x)) := by
  have hx := x.toNat_lt
  have hlo := plan.lo.toNat_lt
  -- Both numbers have 32 bits, so their distance has its place among those of 64.
  have hfits : -0x8000000000000000 ≤ (x.toNat : Int) - plan.lo.toNat ∧
      (x.toNat : Int) - plan.lo.toNat < 0x8000000000000000 := by omega
  rw [bodyOf, Frame.run, if_pos hfits, lookup_array]
  by_cases hle : plan.lo ≤ x
  · have hnat := UInt32.le_iff_toNat_le.1 hle
    rw [if_pos hle, ← Int.ofNat_sub hnat]
    by_cases hlt : x.toNat - plan.lo.toNat < plan.length
    · have hget := List.getElem?_eq_getElem (l := plan.positions)
        (by rw [length_positions]; exact hlt)
      refine (Frame.run_guard_of_lt hlt).trans ?_
      rw [List.getElem?_map, hget]
      rfl
    · have hout : ¬((0 : Int) ≤ (x.toNat - plan.lo.toNat : Nat) ∧
          ((x.toNat - plan.lo.toNat : Nat) : Int) < plan.length) := by omega
      refine (Frame.run_guard_of_not hout).trans ?_
      rw [List.getElem?_eq_none (by rw [length_positions]; omega)]
      rfl
  · -- Below the table the distance is negative, which unsigned subtraction would hide.
    rw [if_neg hle]
    have hnat : x.toNat < plan.lo.toNat := UInt32.lt_iff_toNat_lt.1 (UInt32.not_le.1 hle)
    have hout : ¬(0 ≤ (x.toNat : Int) - plan.lo.toNat ∧
        (x.toNat : Int) - plan.lo.toNat < plan.length) := by omega
    exact Frame.run_guard_of_not hout

/-! ### Lookup functions -/

section Contract

variable {strategy : Strategy} {mapping : Mapping} {config : Config} {plan : Plan}

theorem firstAt_slots (h : Plan.ofMapping strategy mapping config = .ok plan) (x : Identifier) :
    firstAt plan.slots.toList x = plan.lookup x := by
  cases hfirst : firstAt plan.slots.toList x with
  | some slot =>
      have hmem := Array.mem_def.2 (List.mem_of_find?_eq_some hfirst)
      have hx : slot.identifier = x := by simpa using List.find?_some hfirst
      exact ((Plan.lookup_eq_some_iff h).2 ⟨(Plan.mem_slots h).1 hmem, hx⟩).symm
  | none =>
      refine ((Plan.lookup_eq_none_iff h).2 ?_).symm
      intro slot hslot
      have hmem := Array.mem_def.1 ((Plan.mem_slots h).2 hslot)
      simpa using List.find?_eq_none.1 hfirst slot hmem

theorem nodup_identifiers_toList (h : Plan.ofMapping strategy mapping config = .ok plan) :
    (plan.slots.toList.map (·.identifier)).Nodup := by
  rw [Plan.slots_ofMapping h]
  exact Plan.nodup_orderedSlots_identifiers strategy mapping

/-- Calling the function of a plan points to what the plan finds. -/
theorem call_ofMapping (h : Plan.ofMapping strategy mapping config = .ok plan) (x : Identifier) :
    Function.call ⟨tableOf plan, bodyOf plan⟩ x = .ok (pointerTo (plan.lookup x)) := by
  have hfirst := firstAt_slots h x
  have hnodup := nodup_identifiers_toList h
  rw [Function.call]
  cases plan with
  | switch plan =>
      rw [← hfirst]
      exact Frame.run_switch ⟨none, x, none⟩ _ hnodup
  | chain plan =>
      rw [← hfirst]
      exact Frame.run_chain ⟨none, x, none⟩ _
  | array plan =>
      have hlength : (tableOf (.array plan)).all
          (fun table => table.cells.length ≤ table.length) := by
        simp [tableOf, length_positions]
      rw [if_pos hlength]
      exact run_table plan x

/-- Pointers tell the slots of a mapping apart. -/
theorem pointerTo_eq_member_iff (h : Plan.ofMapping strategy mapping config = .ok plan)
    {x : Identifier} {slot : Slot} (hslot : slot ∈ plan.slots) :
    pointerTo (plan.lookup x) = .member slot.name.text ↔ plan.lookup x = some slot := by
  constructor
  · intro heq
    cases hfound : plan.lookup x with
    | none =>
        rw [hfound] at heq
        cases heq
    | some found =>
        rw [hfound, pointerTo, Pointer.member.injEq] at heq
        -- A name is all that a pointer keeps of a slot, but no two entries have one slot name.
        obtain ⟨e, he, rfl⟩ := Mapping.mem_slots.1 ((Plan.mem_slots h).1 hslot)
        obtain ⟨e', he', rfl⟩ := Mapping.mem_slots.1 ((Plan.lookup_eq_some_iff h).1 hfound).1
        have hname : SlotName.ofEntry e' = SlotName.ofEntry e := by
          rw [SlotName.mk.injEq]
          exact heq
        rw [List.inj_on_of_nodup_map mapping.nodup_slotNames he' he hname]
  · rintro heq
    rw [heq, pointerTo]

theorem pointerTo_eq_null_iff {slot? : Option Slot} : pointerTo slot? = .null ↔ slot? = none := by
  cases slot? <;> simp [pointerTo]

/-- The generated class implements the plan. Whatever mapping is read from a text, both units of its
artifact can be read back, and the lookup function they contain runs without trouble on every
identifier: it points to a slot exactly when the plan finds that slot, and to nothing exactly when the
plan finds nothing. A table has as many initialisers as it declares cells, and a switch never has two
labels for one number. -/
theorem emitted_lookup_implements_plan {name source : String} {readConfig : Config}
    {artifact : Artifact} (hmapping : Mapping.ofSource name source readConfig = .ok mapping)
    (hnull : Text.isWord config.target.null ∨ config.target.null = "0")
    (hemit : Artifact.emit mapping strategy config = .ok artifact) :
    ∃ function, function? config.target artifact = some function ∧
      Plan.ofMapping strategy mapping config = .ok artifact.plan ∧
      (∀ x, function.call x = .ok (pointerTo (artifact.plan.lookup x))) ∧
      (∀ x, ∀ slot ∈ artifact.plan.slots,
        function.call x = .ok (.member slot.name.text) ↔ artifact.plan.lookup x = some slot) ∧
      (∀ x, function.call x = .ok .null ↔ artifact.plan.lookup x = none) ∧
      (function.table?.isSome ↔ strategy = .array) ∧
      (∀ table, function.table? = some table → table.cells.length = table.length) ∧
      ∀ sections, .switch sections ∈ function.body → (sections.map (·.1)).Nodup := by
  have hnull' : Text.isWordTail config.target.null := by
    rcases hnull with hword | hzero
    · exact Text.isWordTail_of_isWord hword
    · rw [hzero]
      decide
  obtain ⟨plan, hplan, rfl⟩ := Except.map_eq_ok_iff.1 hemit
  have hnames : ∀ slot ∈ plan.slots, Text.isWord slot.name.text := fun slot hslot =>
    Mapping.isWord_slotName_of_ofSource hmapping slot ((Plan.mem_slots hplan).1 hslot)
  have hcall := call_ofMapping hplan
  refine ⟨_, function?_ofPlan hnull' hnames mapping.name, hplan, hcall, ?_, ?_, ?_, ?_, ?_⟩
  · intro x slot hslot
    rw [hcall, Except.ok.injEq]
    exact pointerTo_eq_member_iff hplan hslot
  · intro x
    rw [hcall, Except.ok.injEq]
    exact pointerTo_eq_null_iff
  · rw [← Plan.strategy_ofMapping hplan]
    cases plan <;> simp [tableOf, Plan.strategy]
  · intro table htable
    cases plan with
    | switch plan => cases htable
    | chain plan => cases htable
    | array plan =>
        cases htable
        simp [length_positions]
  · intro sections hsections
    have hlabels := Frame.nodup_labels _ (nodup_identifiers_toList hplan)
    cases plan with
    | switch plan =>
        obtain rfl : sections = _ := by simpa [bodyOf] using hsections
        exact hlabels
    | chain plan =>
        cases htests : plan.tests.toList <;> simp [bodyOf, htests, chainStatements] at hsections
    | array plan => simp [bodyOf] at hsections

/-- The class of a table over three protocols, called inside its range, below it, in a gap and above
it. -/
theorem emitted_lookup_ipProtocols :
    Mapping.ofSource "ip" Mapping.ipProtocolsText {} = .ok Mapping.ipProtocols ∧
      Text.isWord Target.standard.null ∧
      ∃ artifact function, Artifact.emit Mapping.ipProtocols .array {} = .ok artifact ∧
        function? Target.standard artifact = some function ∧
        function.call 6 = .ok (.member "tcpanalyzer6") ∧ function.call 0 = .ok .null ∧
        function.call 2 = .ok .null ∧ function.call 0xffffffff = .ok .null := by
  have hword : Text.isWord Target.standard.null := by decide
  obtain ⟨plan, hplan⟩ := Plan.ofMapping_ipProtocols
  have hemit : Artifact.emit Mapping.ipProtocols .array {} =
      .ok (Artifact.ofPlan Target.standard "ip" plan) := by
    rw [Artifact.emit, hplan]
    rfl
  obtain ⟨function, hfunction, -, hcall, -, hnull, -⟩ :=
    emitted_lookup_implements_plan Mapping.ofSource_ipProtocolsText (.inl hword) hemit
  have hnone {x : Identifier} (h : ∀ slot ∈ Mapping.ipProtocols.slots, slot.identifier ≠ x) :
      function.call x = .ok .null :=
    (hnull x).2 ((Plan.lookup_eq_none_iff hplan).2 h)
  refine ⟨Mapping.ofSource_ipProtocolsText, hword, _, function, hemit, hfunction, ?_,
    hnone (by decide), hnone (by decide), hnone (by decide)⟩
  have hsix : plan.lookup 6 = some ⟨6, "TCPAnalyzer", ⟨"tcpanalyzer6"⟩⟩ :=
    (Plan.lookup_eq_some_iff hplan).2 (by decide)
  rw [hcall]
  exact congrArg (fun slot? => Except.ok (pointerTo slot?)) hsix

end Contract

end Generated

end Switchboard
