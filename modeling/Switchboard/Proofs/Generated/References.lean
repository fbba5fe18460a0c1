import Switchboard.Proofs.Generated.Mentions
import Switchboard.Proofs.Plan.Layout

/-!
References between the two units of a class. The interface unit declares the slots that the lookup
function returns, that a table is filled with and that the state method writes. The units are built
apart from each other, so that they fit together is read from their lines.

Whatever the vocabulary is, a line of the frame of a class does not look like the declaration of a slot
or like a cell of a table: it has another last character, or not exactly one blank. Only a null pointer
that is written like an address could be taken for a slot.
-/

namespace Switchboard

namespace Generated

/-! ### Slots in a line -/

/-- The slots whose addresses are returned. -/
def returnedNames : List Code → List String :=
  mentions "return &" ";"

/-- The slots whose addresses are listed. -/
def initialisedNames : List Code → List String :=
  mentions "&" ","

/-- The slots whose states are written. -/
def dumpedNames : List Code → List String :=
  mentions "os << " " << \"\\n\";"

/-- The name that a line `T s;` declares. There is one blank in it. -/
def declaredName? (text : String) : Option String :=
  if text.toList.count ' ' = 1 then
    (between? " " ";" (text.toList.dropWhile (· != ' '))).map String.ofList
  else none

/-- The names that are declared by lines of their own. -/
def declaredNames (unit : List Code) : List String :=
  (Code.texts unit).filterMap declaredName?

/-- The slots that a class refers to, in the body of its lookup function or in its table. -/
def references (lookup interface : List Code) : List String :=
  returnedNames lookup ++ initialisedNames interface

/-! ### Lookup functions -/

section Bodies

variable {target : Target}

/-- A line that opens a block or is a label returns nothing. -/
theorem mention?_return_of_getLast? {text : String} {c : Char} (h : text.toList.getLast? = some c)
    (hc : c ≠ ';') : mention? "return &" ";" text = none :=
  mention?_of_getLast?_ne rfl h fun heq => hc (Option.some.inj heq)

theorem returnedNames_returnSlot (slot : Slot) :
    returnedNames [Artifact.returnSlot slot] = [slot.name.text] := by
  rw [returnedNames, Artifact.returnSlot, mentions_line_some (mention?_append _ _ _), mentions_nil]

theorem returnedNames_returnNull (hnull : target.null.toList.head? ≠ some '&') :
    returnedNames [Artifact.returnNull target] = [] := by
  have hnone : mention? "return &" ";" ("return " ++ target.null ++ ";") = none :=
    mention?_null hnull "return " ";"
  rw [returnedNames, Artifact.returnNull, mentions_line_none hnone, mentions_nil]

/-- A line with one slot in the block under it. -/
theorem returnedNames_line_returnSlot {text : String} {c : Char}
    (h : text.toList.getLast? = some c) (hc : c ≠ ';') (slot : Slot) (rest : List Code) :
    returnedNames (.line text :: .block [Artifact.returnSlot slot] :: rest) =
      slot.name.text :: returnedNames rest := by
  have hslot := returnedNames_returnSlot slot
  rw [returnedNames] at hslot ⊢
  rw [mentions_line_none (mention?_return_of_getLast? h hc), mentions_block, hslot,
    List.singleton_append]

theorem returnedNames_append (code more : List Code) :
    returnedNames (code ++ more) = returnedNames code ++ returnedNames more :=
  mentions_append code more

theorem returnedNames_switchCases (slots : List Slot) :
    returnedNames (slots.flatMap Artifact.switchCase) = slots.map (·.name.text) := by
  induction slots with
  | nil => exact mentions_nil
  | cons slot rest ih =>
      rw [List.flatMap_cons, Artifact.switchCase, List.cons_append, List.cons_append,
        List.nil_append, returnedNames_line_returnSlot (getLast?_append rfl) (by decide), ih,
        List.map_cons]

theorem returnedNames_switchBody (hnull : target.null.toList.head? ≠ some '&') (plan : SwitchPlan) :
    returnedNames (Artifact.switchBody target plan) = plan.cases.toList.map (·.name.text) := by
  have hcases := returnedNames_switchCases plan.cases.toList
  have hdefault := returnedNames_returnNull hnull
  have hopen : mention? "return &" ";" "switch (identifier) \x7b" = none := by decide
  have hlabel : mention? "return &" ";" "default:" = none := by decide
  have hclose : mention? "return &" ";" "\x7d" = none := by decide
  rw [returnedNames] at hcases hdefault ⊢
  rw [Artifact.switchBody, mentions_line_none hopen, mentions_block, mentions_append, hcases,
    mentions_line_none hlabel, mentions_block, hdefault, mentions_nil, mentions_line_none hclose,
    mentions_nil, List.append_nil, List.append_nil, List.append_nil]

theorem getLast?_chainTest (slot : Slot) : (Artifact.chainTest slot).toList.getLast? = some '\x7b' :=
  getLast?_append rfl

theorem returnedNames_chainRest (slots : List Slot) :
    returnedNames (Artifact.chainRest slots) = slots.map (·.name.text) := by
  induction slots with
  | nil =>
      have hclose : mention? "return &" ";" "\x7d" = none := by decide
      rw [Artifact.chainRest, returnedNames, mentions_line_none hclose, mentions_nil, List.map_nil]
  | cons slot rest ih =>
      rw [Artifact.chainRest, returnedNames_line_returnSlot
        (getLast?_append (getLast?_chainTest slot)) (by decide), ih, List.map_cons]

theorem returnedNames_chainBody (hnull : target.null.toList.head? ≠ some '&') (plan : ChainPlan) :
    returnedNames (Artifact.chainBody target plan) = plan.tests.toList.map (·.name.text) := by
  unfold Artifact.chainBody
  split
  · next hnil => rw [returnedNames_returnNull hnull, hnil, List.map_nil]
  · next slot rest hcons =>
    rw [hcons, returnedNames_line_returnSlot (getLast?_chainTest slot) (by decide),
      returnedNames_append, returnedNames_chainRest, returnedNames_returnNull hnull,
      List.append_nil, List.map_cons]

theorem returnedNames_tableBody (hnull : target.null.toList.head? ≠ some '&') (plan : TablePlan) :
    returnedNames (Artifact.tableBody target plan) = [] := by
  have hindex : ("int64_t index = static_cast<int64_t>(identifier) - " ++ plan.lo.literal ++
      ";").toList.head? = some 'i' := by
    simp only [String.toList_append, List.head?_append]
    rfl
  have hrebase : mention? "return &" ";" ("int64_t index = static_cast<int64_t>(identifier) - " ++
      plan.lo.literal ++ ";") = none :=
    mention?_of_head?_ne rfl hindex (by decide)
  have hguard : mention? "return &" ";" ("if (index >= 0 && index < " ++ toString plan.length ++
      " && table[index] != " ++ target.null ++ ") \x7b") = none :=
    mention?_return_of_getLast? (getLast?_append rfl) (by decide)
  have hcell : mention? "return &" ";" "return table[index];" = none := by decide
  have hclose : mention? "return &" ";" "\x7d" = none := by decide
  have hreturn := returnedNames_returnNull hnull
  rw [returnedNames] at hreturn ⊢
  rw [Artifact.tableBody, mentions_line_none hrebase, mentions_line_none hguard, mentions_block,
    mentions_line_none hcell, mentions_nil, List.nil_append, mentions_line_none hclose, hreturn]

end Bodies

/-! ### Interface units -/

/-- A declaration has one blank and ends with a semicolon. -/
theorem shape_of_declaredName? {text name : String} (h : declaredName? text = some name) :
    text.toList.count ' ' = 1 ∧ text.toList.getLast? = some ';' := by
  rw [declaredName?] at h
  split at h
  · next hcount =>
    obtain ⟨chars, hchars, -⟩ := Option.map_eq_some_iff.1 h
    -- What is left behind the type ends like the line.
    obtain ⟨type, htype⟩ := List.dropWhile_suffix (l := text.toList) (· != ' ')
    rw [between?_eq_some_iff.1 hchars, ← List.append_assoc, ← List.append_assoc] at htype
    refine ⟨hcount, ?_⟩
    rw [← htype]
    exact List.getLast?_concat
  · cases h

/-- A line of the frame of a class: it ends no cell of a table, and if it ends like a declaration, it is
not one of a type and a name. -/
structure IsFrame (text : String) : Prop where
  not_cell : text.toList.getLast? ≠ some ','
  not_declaration : text.toList.getLast? = some ';' → text.toList.count ' ' ≠ 1

namespace IsFrame

variable {text : String}

theorem empty : IsFrame "" :=
  ⟨by decide, by decide⟩

/-- A line that ends in any other way is one of the frame. -/
theorem of_getLast? {c : Char} (h : text.toList.getLast? = some c) (hcell : c ≠ ',')
    (hdeclaration : c ≠ ';') : IsFrame text := by
  constructor
  · rw [h]
    exact fun heq => hcell (Option.some.inj heq)
  · rw [h]
    exact fun heq => absurd (Option.some.inj heq) hdeclaration

theorem of_count (h : text.toList.getLast? = some ';') (hcount : text.toList.count ' ' ≠ 1) :
    IsFrame text := by
  refine ⟨?_, fun _ => hcount⟩
  rw [h]
  decide

theorem declaredName?_eq_none (h : IsFrame text) : declaredName? text = none := by
  rw [Option.eq_none_iff_forall_ne_some]
  intro name hname
  obtain ⟨hcount, hlast⟩ := shape_of_declaredName? hname
  exact h.not_declaration hlast hcount

theorem mention?_eq_none (h : IsFrame text) : mention? "&" "," text = none := by
  rw [Option.eq_none_iff_forall_ne_some]
  intro name hname
  refine h.not_cell ?_
  rw [mention?_eq_some_iff.1 hname]
  exact getLast?_append rfl

end IsFrame

theorem declaredName?_declared {slot : Slot} (htype : ' ' ∉ slot.typeName.toList)
    (hname : ' ' ∉ slot.name.text.toList) : declaredName? (declared slot) = some slot.name.text := by
  have hline : (declared slot).toList =
      slot.typeName.toList ++ (" ".toList ++ (slot.name.text.toList ++ ";".toList)) := by
    simp [declared]
  have hcount : (declared slot).toList.count ' ' = 1 := by
    simp [hline, List.count_eq_zero_of_not_mem htype, List.count_eq_zero_of_not_mem hname]
  have hbefore : ∀ c ∈ slot.typeName.toList, (c != ' ') = true := by
    intro c hc
    simpa using ne_of_mem_of_not_mem hc htype
  have hdrop : (declared slot).toList.dropWhile (· != ' ') =
      " ".toList ++ (slot.name.text.toList ++ ";".toList) := by
    rw [hline, List.dropWhile_append_of_pos hbefore]
    rfl
  rw [declaredName?, if_pos hcount, hdrop, between?_append, Option.map_some, String.ofList_toList]

/-- The lines of a class in front of its slots. -/
def frameTexts (target : Target) (className : String) : List String :=
  ["#pragma once", ""] ++ target.includes.map (fun header => "#include \"" ++ header ++ "\"") ++
    ["", "class " ++ className ++ " : public " ++ target.baseClass ++ " \x7b", "public:",
      target.handlerType ++ "* lookup(" ++ target.identifierType ++ " identifier) override;",
      "private:", "void " ++ target.stateMethod ++ "(std::ostream &os) const override;"]

theorem isFrame_of_mem_frameTexts {target : Target} {className text : String}
    (h : text ∈ frameTexts target className) : IsFrame text := by
  simp only [frameTexts, List.mem_append, List.mem_cons, List.not_mem_nil, or_false,
    List.mem_map] at h
  rcases h with ((rfl | rfl) | ⟨header, -, rfl⟩) | rfl | rfl | rfl | rfl | rfl | rfl
  · exact .of_getLast? (c := 'e') (by decide) (by decide) (by decide)
  · exact .empty
  · exact .of_getLast? (getLast?_append rfl) (by decide) (by decide)
  · exact .empty
  · exact .of_getLast? (getLast?_append rfl) (by decide) (by decide)
  · exact .of_getLast? (c := ':') (by decide) (by decide) (by decide)
  · refine .of_count (getLast?_append rfl) ?_
    simp only [String.toList_append, List.count_append]
    have hblanks : " identifier) override;".toList.count ' ' = 2 := by decide
    omega
  · exact .of_getLast? (c := ':') (by decide) (by decide) (by decide)
  · refine .of_count (getLast?_append rfl) ?_
    simp only [String.toList_append, List.count_append]
    have hblanks : "(std::ostream &os) const override;".toList.count ' ' = 3 := by decide
    omega

/-- How a cell of a table is written. -/
def cellText (target : Target) : Option Slot → String
  | some slot => "&" ++ slot.name.text ++ ","
  | none => target.null ++ ","

/-- The cells of the table, if the class has one. -/
def cells : Plan → List (Option Slot)
  | .switch _ | .chain _ => []
  | .array table => table.positions

theorem getLast?_cellText (target : Target) (cell : Option Slot) :
    (cellText target cell).toList.getLast? = some ',' := by
  cases cell with
  | none => exact getLast?_append rfl
  | some slot => exact getLast?_append rfl

section Interface

variable {target : Target} {className : String} {plan : Plan} {read? : String → Option String}

/-- The cells of a table stand in a frame of their own. -/
theorem filterMap_texts_extraMembers (hframe : ∀ text, IsFrame text → read? text = none) :
    (Code.texts (Artifact.extraMembers target plan)).filterMap read? =
      ((cells plan).map (cellText target)).filterMap read? := by
  cases plan with
  | switch _ => rw [Artifact.extraMembers, Code.texts_nil, cells, List.map_nil]
  | chain _ => rw [Artifact.extraMembers, Code.texts_nil, cells, List.map_nil]
  | array table =>
      have hcells : table.positions.map (Artifact.tableEntry target) =
          (table.positions.map (cellText target)).map .line := by
        rw [List.map_map]
        refine List.map_congr_left fun cell _ => ?_
        cases cell <;> rfl
      have hopen : read? (target.handlerType ++ "* table[" ++ toString table.length ++
          "] = \x7b") = none :=
        hframe _ (.of_getLast? (getLast?_append rfl) (by decide) (by decide))
      have hclose : read? "\x7d;" = none := hframe _ (.of_count (by decide) (by decide))
      rw [Artifact.extraMembers, Artifact.tableMember, hcells, cells, Code.texts_line,
        Code.texts_block, Code.texts_map_line, Code.texts_line, Code.texts_nil,
        List.filterMap_cons_none hopen, List.filterMap_append, List.filterMap_cons_none hclose,
        List.filterMap_nil, List.append_nil]

/-- A reader that finds nothing in the frame of a class reads its slots and the cells of its table. -/
theorem filterMap_texts_interfaceUnit (hframe : ∀ text, IsFrame text → read? text = none) :
    (Code.texts (Artifact.interfaceUnit target className plan)).filterMap read? =
      (plan.slots.toList.map declared).filterMap read? ++
        ((cells plan).map (cellText target)).filterMap read? := by
  have hslots : plan.slots.toList.map Artifact.memberLine =
      (plan.slots.toList.map declared).map .line := by
    simp [Artifact.memberLine, declared]
  have hincludes : target.includes.map Artifact.includeLine =
      (target.includes.map fun header => "#include \"" ++ header ++ "\"").map .line := by
    simp [Artifact.includeLine]
  have htexts : Code.texts (Artifact.interfaceUnit target className plan) =
      frameTexts target className ++ (plan.slots.toList.map declared ++
        (Code.texts (Artifact.extraMembers target plan) ++ ["\x7d;"])) := by
    rw [Artifact.interfaceUnit, hslots, hincludes]
    simp only [frameTexts, Code.texts_append, Code.texts_line, Code.texts_block,
      Code.texts_map_line, Code.texts_nil, List.append_assoc, List.cons_append, List.nil_append]
  have hbefore : (frameTexts target className).filterMap read? = [] :=
    List.filterMap_eq_nil_iff.2 fun text h => hframe text (isFrame_of_mem_frameTexts h)
  have hclose : read? "\x7d;" = none := hframe _ (.of_count (by decide) (by decide))
  rw [htexts, List.filterMap_append, List.filterMap_append, List.filterMap_append, hbefore,
    filterMap_texts_extraMembers hframe, List.filterMap_cons_none hclose, List.filterMap_nil,
    List.nil_append, List.append_nil]

/-- Only the slots are declared on lines of their own. -/
theorem declaredNames_interfaceUnit (hblank : ∀ slot ∈ plan.slots,
      ' ' ∉ slot.typeName.toList ∧ ' ' ∉ slot.name.text.toList) :
    declaredNames (Artifact.interfaceUnit target className plan) =
      plan.slots.toList.map (·.name.text) := by
  have hslots : (plan.slots.toList.map declared).filterMap declaredName? =
      plan.slots.toList.map (·.name.text) := by
    rw [List.filterMap_map, List.filterMap_eq_map_iff_forall_eq_some]
    intro slot hslot
    obtain ⟨htype, hname⟩ := hblank slot (Array.mem_def.2 hslot)
    exact declaredName?_declared htype hname
  have hcells : ((cells plan).map (cellText target)).filterMap declaredName? = [] := by
    rw [List.filterMap_map, List.filterMap_eq_nil_iff]
    intro cell _
    rw [Function.comp_apply, Option.eq_none_iff_forall_ne_some]
    intro name hname
    have hlast := (shape_of_declaredName? hname).2
    rw [getLast?_cellText] at hlast
    exact absurd hlast (by decide)
  rw [declaredNames, filterMap_texts_interfaceUnit fun _ => IsFrame.declaredName?_eq_none, hslots,
    hcells, List.append_nil]

theorem mention?_cellText (hnull : target.null.toList.head? ≠ some '&') (cell : Option Slot) :
    mention? "&" "," (cellText target cell) = cell.map (·.name.text) := by
  cases cell with
  | some slot => exact mention?_append "&" slot.name.text ","
  | none =>
      have hnone := mention?_null hnull "" ","
      rwa [String.empty_append, String.empty_append] at hnone

/-- Only the cells of a table list addresses. -/
theorem initialisedNames_interfaceUnit (hnull : target.null.toList.head? ≠ some '&') :
    initialisedNames (Artifact.interfaceUnit target className plan) =
      (cells plan).filterMap fun cell => cell.map (·.name.text) := by
  have hslots : (plan.slots.toList.map declared).filterMap (mention? "&" ",") = [] := by
    rw [List.filterMap_map, List.filterMap_eq_nil_iff]
    exact fun slot _ => mention?_of_getLast?_ne rfl (getLast?_append rfl) (by decide)
  rw [initialisedNames, mentions, filterMap_texts_interfaceUnit fun _ => IsFrame.mention?_eq_none,
    hslots, List.nil_append, List.filterMap_map]
  exact List.filterMap_congr fun cell _ => mention?_cellText hnull cell

end Interface

/-! ### References -/

section Contract

variable {name source : String} {readConfig config : Config} {mapping : Mapping}
  {strategy : Strategy} {artifact : Artifact} {plan : Plan}

theorem dumpedNames_stateLines (slots : List Slot) :
    dumpedNames (slots.map Artifact.stateLine) = slots.map (·.name.text) := by
  induction slots with
  | nil => exact mentions_nil
  | cons slot rest ih =>
      rw [dumpedNames] at ih ⊢
      rw [List.map_cons, Artifact.stateLine, mentions_line_some (mention?_append _ _ _), ih,
        List.map_cons]

/-- A switch and a chain refer to their slots in the lookup function, and a table in its cells. -/
theorem references_ofPlan (hplan : Plan.ofMapping strategy mapping config = .ok plan)
    {target : Target} (hnull : target.null.toList.head? ≠ some '&') (className : String) :
    references (Artifact.lookupBody target plan) (Artifact.interfaceUnit target className plan) =
        plan.slots.toList.map (·.name.text) ∧
      (strategy = .array → returnedNames (Artifact.lookupBody target plan) = []) ∧
      (strategy ≠ .array →
        initialisedNames (Artifact.interfaceUnit target className plan) = []) := by
  have hinitialised : initialisedNames (Artifact.interfaceUnit target className plan) = _ :=
    initialisedNames_interfaceUnit hnull
  rw [references, hinitialised]
  obtain ⟨rfl, rfl⟩ | ⟨rfl, rfl⟩ | ⟨table, rfl, htable, rfl⟩ := Plan.ofMapping_eq_ok hplan
  · have hreturned := returnedNames_switchBody hnull (SwitchPlan.ofMapping mapping)
    simp [Artifact.lookupBody, hreturned, cells, Plan.slots]
  · have hreturned := returnedNames_chainBody hnull (ChainPlan.ofMapping mapping)
    simp [Artifact.lookupBody, hreturned, cells, Plan.slots]
  · have hreturned := returnedNames_tableBody hnull table
    have hcells : table.positions.filterMap (fun cell => cell.map (·.name.text)) =
        table.slots.toList.map (·.name.text) := by
      rw [← TablePlan.filterMap_positions htable, List.map_filterMap]
      rfl
    simp [Artifact.lookupBody, hreturned, cells, hcells, Plan.slots]

/-- The units of a class refer to each other without a gap. Whatever mapping is read from a text and
whatever vocabulary its class is written in, as long as the null pointer is not written like an
address: a slot that the lookup function returns, or that stands in the table, is declared by exactly
one line of the interface, and a slot that is declared is referred to once there and written once by
the state method, which writes no others. A switch and a chain have their references in the body of
the lookup function, a table has them among its cells. All heads and both files name one class. -/
theorem emitted_references_resolve
    (hmapping : Mapping.ofSource name source readConfig = .ok mapping)
    (hnull : config.target.null.toList.head? ≠ some '&')
    (hemit : Artifact.emit mapping strategy config = .ok artifact) :
    ∃ lookup state,
      blockUnder? (signature config.target artifact.className) artifact.implementation =
        some lookup ∧
      blockUnder? (stateSignature config.target artifact.className) artifact.implementation =
        some state ∧
      (∀ s ∈ references lookup artifact.interface,
        (declaredNames artifact.interface).count s = 1) ∧
      (∀ s ∈ declaredNames artifact.interface,
        (references lookup artifact.interface).count s = 1 ∧ (dumpedNames state).count s = 1) ∧
      (∀ s ∈ dumpedNames state, s ∈ declaredNames artifact.interface) ∧
      (strategy = .array → returnedNames lookup = []) ∧
      (strategy ≠ .array → initialisedNames artifact.interface = []) ∧
      (declaredNames artifact.interface).Perm
        (mapping.entries.map fun e => (SlotName.ofEntry e).text) ∧
      NamesClass config.target artifact (strategy.className name) := by
  have hclass := namesClass_of_emit hemit
  rw [(Mapping.ofSource_eq_ok hmapping).1] at hclass
  obtain ⟨plan, hplan, rfl⟩ := Except.map_eq_ok_iff.1 hemit
  have hblank : ∀ slot ∈ plan.slots, ' ' ∉ slot.typeName.toList ∧ ' ' ∉ slot.name.text.toList :=
    fun slot hslot => blank_not_mem_of_ofSource hmapping slot ((Plan.mem_slots hplan).1 hslot)
  have hdeclared : declaredNames (Artifact.ofPlan config.target mapping.name plan).interface =
      plan.slots.toList.map (·.name.text) :=
    declaredNames_interfaceUnit hblank
  obtain ⟨hreferences, hreturned, hinitialised⟩ :=
    references_ofPlan hplan hnull (plan.strategy.className mapping.name)
  have hdumped := dumpedNames_stateLines plan.slots.toList
  have honce {s : String} (hs : s ∈ plan.slots.toList.map (·.name.text)) :
      (plan.slots.toList.map (·.name.text)).count s = 1 :=
    List.count_eq_one_of_mem (nodup_slotNames hplan) hs
  refine ⟨_, _, blockUnder?_implementation _ _ _, blockUnder?_stateMethod _ _ _, ?_, ?_, ?_,
    hreturned, hinitialised, ?_, hclass⟩
  · intro s hs
    rw [hdeclared]
    exact honce (hreferences ▸ hs)
  · intro s hs
    rw [hdeclared] at hs
    exact ⟨hreferences ▸ honce hs, hdumped ▸ honce hs⟩
  · intro s hs
    rwa [hdeclared, ← hdumped]
  · rw [hdeclared]
    exact slotNames_perm hplan

/-- The class of a table over three protocols. -/
theorem emitted_references_ipProtocols :
    Mapping.ofSource "ip" Mapping.ipProtocolsText {} = .ok Mapping.ipProtocols ∧
      Target.standard.null.toList.head? ≠ some '&' ∧
      ∃ artifact, Artifact.emit Mapping.ipProtocols .array {} = .ok artifact ∧
        (declaredNames artifact.interface).count "tcpanalyzer6" = 1 ∧
        (initialisedNames artifact.interface).count "tcpanalyzer6" = 1 ∧
        NamesClass Target.standard artifact "GeneratedArrayIp" := by
  have hnull : Target.standard.null.toList.head? ≠ some '&' := by decide
  obtain ⟨artifact, hemit⟩ := emit_ipProtocols
  obtain ⟨lookup, state, -, -, hdeclared, hreferences, -, hreturned, -, hperm, hclass⟩ :=
    emitted_references_resolve Mapping.ofSource_ipProtocolsText hnull hemit
  have hmem : "tcpanalyzer6" ∈ declaredNames artifact.interface := hperm.mem_iff.2 (by decide)
  have hcount := (hreferences _ hmem).1
  have hone := List.count_pos_iff.1 (Nat.lt_of_lt_of_eq Nat.one_pos hcount.symm)
  rw [references, hreturned rfl, List.nil_append] at hcount
  refine ⟨Mapping.ofSource_ipProtocolsText, hnull, artifact, hemit, hdeclared _ hone, hcount, ?_⟩
  have hname : Strategy.array.className "ip" = "GeneratedArrayIp" := by decide
  exact hname ▸ hclass

end Contract

end Generated

end Switchboard
