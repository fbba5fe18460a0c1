import Switchboard.Proofs.Code.Rendering
import Switchboard.Proofs.Generated.Mentions

/-!
The indentation of generated classes. No line of one begins with a blank character and no line has a line
feed in it: the fixed parts of a line have none, and what is filled in are words and numbers. So whatever
the units of a class are indented with, tabs or spaces, they show the same lines at the same levels.
-/

namespace Switchboard

namespace Indent

/-- Indentation that is not empty begins with a blank character. -/
theorem exists_head_unit {indent : Indent} (h : indent ≠ .spaces 0) :
    ∃ c ∈ indent.unit.toList.head?, Text.isBlank c := by
  cases indent with
  | tab => exact ⟨'\t', rfl, by decide⟩
  | spaces count =>
      cases count with
      | zero => exact absurd rfl h
      | succ count => exact ⟨' ', by simp [unit, List.replicate_succ], by decide⟩

theorem unit_ne_empty {indent : Indent} (h : indent ≠ .spaces 0) : indent.unit ≠ "" := by
  obtain ⟨c, hc, -⟩ := exists_head_unit h
  rintro hempty
  rw [hempty] at hc
  cases hc

theorem feed_not_mem_unit (indent : Indent) : '\n' ∉ indent.unit.toList := by
  cases indent with
  | tab => decide
  | spaces count => simp [unit, List.mem_replicate]

end Indent

namespace Generated

/-! ### Flush lines -/

/-- The text is a single line, and a character that is not blank comes first. -/
structure IsFlush (text : String) : Prop where
  no_feed : '\n' ∉ text.toList
  head : ∀ c ∈ text.toList.head?, Text.isBlank c = false

instance (text : String) : Decidable (IsFlush text) :=
  decidable_of_iff ('\n' ∉ text.toList ∧ text.toList.head?.all (!Text.isBlank ·) = true)
    ⟨fun h => ⟨h.1, by simpa [Option.all_eq_true] using h.2⟩,
      fun h => ⟨h.1, by simpa [Option.all_eq_true] using h.head⟩⟩

namespace IsFlush

variable {front back text : String}

/-- Only what comes first in a line can come before all blank characters. -/
theorem append (h : IsFlush front) (hne : front ≠ "") (hback : '\n' ∉ back.toList) :
    IsFlush (front ++ back) where
  no_feed := by simp [h.no_feed, hback]
  head c hc := by
    rw [String.toList_append, List.head?_append_of_ne_nil _ (by simpa using hne)] at hc
    exact h.head c hc

/-- A fixed text is filled in with something that stays on the line. -/
theorem fill (h : IsFlush front) (hne : front ≠ "") {filling : String}
    (hfilling : '\n' ∉ filling.toList) (hback : '\n' ∉ back.toList) :
    IsFlush (front ++ filling ++ back) := by
  rw [String.append_assoc]
  exact h.append hne (by simp [hfilling, hback])

theorem of_isWord (h : Text.isWord text) : IsFlush text where
  no_feed := not_mem_of_isWordTail (Text.isWordTail_of_isWord h) (by decide)
  head c hc := Text.isBlank_of_isWordChar
    ((Text.isWordTail_eq_true_iff.1 (Text.isWordTail_of_isWord h)).2 c (List.mem_of_head? hc))

theorem unambiguous {line : Code.Line} (h : IsFlush line.text) {indent : Indent}
    (hindent : indent ≠ .spaces 0) : line.Unambiguous indent.unit where
  no_feed := h.no_feed
  no_indent := by
    obtain ⟨c, hc, hblank⟩ := Indent.exists_head_unit hindent
    rintro ⟨rest, hrest⟩
    have hhead : c ∈ line.text.toList.head? := by
      rw [← hrest, List.head?_append_of_ne_nil _ fun hnil => by simp [hnil] at hc]
      exact hc
    rw [h.head c hhead] at hblank
    cases hblank

end IsFlush

/-- All lines of the code are flush. -/
def AllFlush (code : List Code) : Prop :=
  ∀ text ∈ Code.texts code, IsFlush text

namespace AllFlush

variable {code more : List Code} {text : String}

theorem nil : AllFlush [] := by
  simp [AllFlush]

theorem line (htext : IsFlush text) (h : AllFlush code) : AllFlush (.line text :: code) := by
  rw [AllFlush, Code.texts_line]
  exact List.forall_mem_cons.2 ⟨htext, h⟩

theorem block {items : List Code} (hitems : AllFlush items) (h : AllFlush code) :
    AllFlush (.block items :: code) := by
  rw [AllFlush, Code.texts_block]
  exact List.forall_mem_append.2 ⟨hitems, h⟩

theorem append (h : AllFlush code) (hmore : AllFlush more) : AllFlush (code ++ more) := by
  rw [AllFlush, Code.texts_append]
  exact List.forall_mem_append.2 ⟨h, hmore⟩

theorem map {α : Type} {values : List α} {f : α → Code} (hf : ∀ value ∈ values, AllFlush [f value]) :
    AllFlush (values.map f) := by
  induction values with
  | nil => exact nil
  | cons value rest ih =>
      obtain ⟨hvalue, hrest⟩ := List.forall_mem_cons.1 hf
      exact append hvalue (ih hrest)

/-- What is rendered can be told apart under every indentation. -/
theorem unambiguous (h : AllFlush code) {indent : Indent} (hindent : indent ≠ .spaces 0) :
    ∀ line ∈ Code.linesOf 0 code, line.Unambiguous indent.unit :=
  fun _ hline => (h _ (List.mem_map_of_mem hline)).unambiguous hindent

theorem recover_render (h : AllFlush code) {indent : Indent} (hindent : indent ≠ .spaces 0) :
    Code.recover indent.unit (Code.render indent.unit code) = Code.shownLines code :=
  Code.recover_render (Indent.unit_ne_empty hindent) indent.feed_not_mem_unit (h.unambiguous hindent)

end AllFlush

/-! ### Lookup functions -/

theorem feed_not_mem_of_isWord {text : String} (h : Text.isWord text) : '\n' ∉ text.toList :=
  (IsFlush.of_isWord h).no_feed

theorem feed_not_mem_literal (identifier : Identifier) : '\n' ∉ identifier.literal.toList :=
  not_mem_literal identifier (by decide)

theorem feed_not_mem_toDigits (n : Nat) : '\n' ∉ Nat.toDigits 10 n := fun hmem =>
  absurd (Nat.isDigit_of_mem_toDigits (by decide) (by decide) hmem) (by decide)

theorem allFlush_returnSlot {slot : Slot} (h : Text.isWord slot.name.text) :
    AllFlush [Artifact.returnSlot slot] := by
  refine .line ?_ .nil
  exact IsFlush.fill (by decide) (by decide) (feed_not_mem_of_isWord h) (by decide)

theorem allFlush_returnNull : AllFlush [Artifact.returnNull Target.standard] :=
  .line (by decide) .nil

theorem allFlush_switchBody {plan : SwitchPlan}
    (h : ∀ slot ∈ plan.cases.toList, Text.isWord slot.name.text) :
    AllFlush (Artifact.switchBody Target.standard plan) := by
  have hcases {slots : List Slot} (h : ∀ slot ∈ slots, Text.isWord slot.name.text) :
      AllFlush (slots.flatMap Artifact.switchCase) := by
    induction slots with
    | nil => exact .nil
    | cons slot rest ih =>
        obtain ⟨hslot, hrest⟩ := List.forall_mem_cons.1 h
        refine .line ?_ (.block (allFlush_returnSlot hslot) (ih hrest))
        exact IsFlush.fill (by decide) (by decide) (feed_not_mem_literal slot.identifier) (by decide)
  refine .line (by decide) (.block ((hcases h).append ?_) (.line (by decide) .nil))
  exact .line (by decide) (.block allFlush_returnNull .nil)

theorem feed_not_mem_chainTest (slot : Slot) : '\n' ∉ (Artifact.chainTest slot).toList := by
  simp [toList_chainTest, feed_not_mem_literal]

theorem isFlush_chainTest (slot : Slot) : IsFlush (Artifact.chainTest slot) where
  no_feed := feed_not_mem_chainTest slot
  head c hc := by
    rw [toList_chainTest] at hc
    cases hc
    decide

theorem allFlush_chainBody {plan : ChainPlan}
    (h : ∀ slot ∈ plan.tests.toList, Text.isWord slot.name.text) :
    AllFlush (Artifact.chainBody Target.standard plan) := by
  have hrest {slots : List Slot} (h : ∀ slot ∈ slots, Text.isWord slot.name.text) :
      AllFlush (Artifact.chainRest slots) := by
    induction slots with
    | nil => exact .line (by decide) .nil
    | cons slot rest ih =>
        obtain ⟨hslot, hrest⟩ := List.forall_mem_cons.1 h
        refine .line ?_ (.block (allFlush_returnSlot hslot) (ih hrest))
        exact IsFlush.append (by decide) (by decide) (feed_not_mem_chainTest slot)
  unfold Artifact.chainBody
  split
  · exact allFlush_returnNull
  · next slot rest hcons =>
    rw [hcons] at h
    obtain ⟨hslot, hslots⟩ := List.forall_mem_cons.1 h
    refine .line (isFlush_chainTest slot) (.block (allFlush_returnSlot hslot) ?_)
    exact (hrest hslots).append allFlush_returnNull

theorem allFlush_tableBody (plan : TablePlan) :
    AllFlush (Artifact.tableBody Target.standard plan) := by
  refine .line ?_ (.line ?_ (.block (.line (by decide) .nil) (.line (by decide) allFlush_returnNull)))
  · exact IsFlush.fill (by decide) (by decide) (feed_not_mem_literal plan.lo) (by decide)
  · rw [String.append_assoc, String.append_assoc, String.append_assoc]
    refine IsFlush.append (by decide) (by decide) ?_
    simp [feed_not_mem_toDigits, Target.standard]

theorem allFlush_lookupBody {plan : Plan} (h : ∀ slot ∈ plan.slots, Text.isWord slot.name.text) :
    AllFlush (Artifact.lookupBody Target.standard plan) := by
  cases plan with
  | switch plan => exact allFlush_switchBody (by simpa [Plan.slots] using h)
  | chain plan => exact allFlush_chainBody (by simpa [Plan.slots] using h)
  | array plan => exact allFlush_tableBody plan

/-! ### Units -/

section Units

variable {className : String} {plan : Plan} (hclass : '\n' ∉ className.toList)
  (hnames : ∀ slot ∈ plan.slots, Text.isWord slot.name.text)

include hclass hnames in
theorem allFlush_implementationUnit :
    AllFlush (Artifact.implementationUnit Target.standard className plan) := by
  have hstates : AllFlush (plan.slots.toList.map Artifact.stateLine) := by
    refine .map fun slot hslot => .line ?_ .nil
    have hname := hnames slot (Array.mem_def.2 hslot)
    exact IsFlush.fill (by decide) (by decide) (feed_not_mem_of_isWord hname) (by decide)
  refine .line ?_ (.line (by decide) (.line ?_ (.block (allFlush_lookupBody hnames)
    (.line (by decide) (.line (by decide) (.line ?_ (.block hstates (.line (by decide) .nil))))))))
  · rw [String.append_assoc]
    exact IsFlush.append (by decide) (by decide) (by simp [hclass, Target.standard])
  · simp only [String.append_assoc]
    exact IsFlush.append (by decide) (by decide) (by simp [hclass, Target.standard])
  · simp only [String.append_assoc]
    exact IsFlush.append (by decide) (by decide) (by simp [hclass, Target.standard])

include hnames in
theorem allFlush_extraMembers : AllFlush (Artifact.extraMembers Target.standard plan) := by
  cases plan with
  | switch _ | chain _ => exact .nil
  | array table =>
      refine .line ?_ (.block (.map fun cell hcell => ?_) (.line (by decide) .nil))
      · simp only [String.append_assoc]
        exact IsFlush.append (by decide) (by decide) (by simp [feed_not_mem_toDigits])
      · cases cell with
        | none => exact .line (by decide) .nil
        | some slot =>
            have hname := hnames slot (mem_slots_of_mem_positions hcell)
            refine .line ?_ .nil
            exact IsFlush.fill (by decide) (by decide) (feed_not_mem_of_isWord hname) (by decide)

include hclass hnames in
theorem allFlush_interfaceUnit (htypes : ∀ slot ∈ plan.slots, Text.isWord slot.typeName) :
    AllFlush (Artifact.interfaceUnit Target.standard className plan) := by
  have hmembers : AllFlush (plan.slots.toList.map Artifact.memberLine) := by
    refine .map fun slot hslot => .line ?_ .nil
    have htype := htypes slot (Array.mem_def.2 hslot)
    have hname := hnames slot (Array.mem_def.2 hslot)
    simp only [String.append_assoc]
    refine (IsFlush.of_isWord htype).append ?_ (by simp [feed_not_mem_of_isWord hname])
    rintro hempty
    rw [hempty] at htype
    cases htype
  have hincludes : AllFlush (Target.standard.includes.map Artifact.includeLine) :=
    .line (by decide) (.line (by decide) .nil)
  refine ((AllFlush.line (by decide) (.line (by decide) .nil)).append hincludes).append ?_
  refine .line (by decide) (.line ?_ (.line (by decide) (.block (.line (by decide) .nil)
    (.line (by decide) (.block ?_ (.line (by decide) .nil))))))
  · simp only [String.append_assoc]
    exact IsFlush.append (by decide) (by decide) (by simp [hclass, Target.standard])
  · exact .line (by decide) (hmembers.append (allFlush_extraMembers hnames))

end Units

variable {name source : String} {readConfig config : Config} {mapping : Mapping} {strategy : Strategy}
  {artifact : Artifact}

/-- Every line of a class that comes from a text is flush. -/
theorem allFlush_of_emit (hmapping : Mapping.ofSource name source readConfig = .ok mapping)
    (htarget : config.target = Target.standard)
    (hemit : Artifact.emit mapping strategy config = .ok artifact) :
    AllFlush artifact.interface ∧ AllFlush artifact.implementation := by
  obtain ⟨plan, hplan, rfl⟩ := Except.map_eq_ok_iff.1 hemit
  have hslots : ∀ slot ∈ plan.slots, slot ∈ mapping.slots := fun slot => (Plan.mem_slots hplan).1
  have hnames : ∀ slot ∈ plan.slots, Text.isWord slot.name.text := fun slot hslot =>
    Mapping.isWord_slotName_of_ofSource hmapping slot (hslots slot hslot)
  have htypes : ∀ slot ∈ plan.slots, Text.isWord slot.typeName := fun slot hslot =>
    Mapping.isWord_typeName_of_ofSource hmapping slot (hslots slot hslot)
  have hclass : '\n' ∉ (plan.strategy.className mapping.name).toList := fun hmem =>
    absurd (plan.strategy.isWordChar_of_mem_className mapping.name_isWordTail _ hmem) (by decide)
  rw [htarget]
  exact ⟨allFlush_interfaceUnit hclass hnames htypes, allFlush_implementationUnit hclass hnames⟩

/-- Rendering loses no line and no level. Let the indentation be neither empty nor more than one line,
and let no line of some code be more than one line or begin with the indentation. Then the rendered text
is made of lines that are each ended by a line feed, one for each line of the code in order. Taking the
indentation off a line as often as it stands there leaves the text of the line, and that is as often as
the line is deep, unless it is empty. So two such trees are rendered alike exactly when they have the same
lines, and the same levels where a line is not empty.

The units of a class are such code, whatever text the mapping was read from and whatever indentation is
configured, and show the same lines under all of them. -/
theorem rendering_loses_no_line :
    (∀ (indent : String) (code : List Code), indent ≠ "" → '\n' ∉ indent.toList →
      (∀ line ∈ Code.linesOf 0 code, line.Unambiguous indent) →
      (Code.render indent code).toList =
          (Code.feedLines (Code.render indent code)).flatMap (· ++ ['\n']) ∧
        (Code.feedLines (Code.render indent code)).map (Code.unindent indent.toList) =
          (Code.linesOf 0 code).map (·.shown) ∧
        ∀ code', (∀ line ∈ Code.linesOf 0 code', line.Unambiguous indent) →
          (Code.render indent code = Code.render indent code' ↔
            (Code.linesOf 0 code).map (·.shown) = (Code.linesOf 0 code').map (·.shown))) ∧
      ∀ name source readConfig mapping strategy config artifact,
        Mapping.ofSource name source readConfig = .ok mapping → config.target = Target.standard →
        Artifact.emit mapping strategy config = .ok artifact →
        ∀ indent indent' : Indent, indent ≠ .spaces 0 → indent' ≠ .spaces 0 →
          (∀ line ∈ Code.linesOf 0 artifact.interface ++ Code.linesOf 0 artifact.implementation,
            line.Unambiguous indent.unit) ∧
          Code.recover indent.unit (artifact.interfaceText indent) =
            Code.recover indent'.unit (artifact.interfaceText indent') ∧
          Code.recover indent.unit (artifact.implementationText indent) =
            Code.recover indent'.unit (artifact.implementationText indent') := by
  constructor
  · intro indent code hindent hfeed hcode
    refine ⟨?_, Code.recover_render hindent hfeed hcode,
      fun code' hcode' => Code.render_eq_iff hindent hfeed hcode hcode'⟩
    rw [Code.feedLines_render hfeed hcode, Code.toList_render]
  · intro name source readConfig mapping strategy config artifact hmapping htarget hemit indent indent'
      hindent hindent'
    obtain ⟨hinterface, himplementation⟩ := allFlush_of_emit hmapping htarget hemit
    refine ⟨List.forall_mem_append.2
      ⟨hinterface.unambiguous hindent, himplementation.unambiguous hindent⟩, ?_, ?_⟩
    · exact (hinterface.recover_render hindent).trans (hinterface.recover_render hindent').symm
    · exact (himplementation.recover_render hindent).trans (himplementation.recover_render hindent').symm

/-- Code with an empty line that is deeper than the lines around it, and a block with nothing in it. -/
def raggedCode : List Code :=
  [.line "enum", .block [.line "", .block [], .block [.line "a,"]], .line "end"]

/-- The same lines, but the empty one stands at the top. -/
def raggedCode' : List Code :=
  [.line "enum", .line "", .block [.block [.line "a,"]], .line "end"]

theorem linesOf_raggedCode :
    Code.linesOf 0 raggedCode = [⟨0, "enum"⟩, ⟨1, ""⟩, ⟨2, "a,"⟩, ⟨0, "end"⟩] := by
  simp [raggedCode, Code.lines]

theorem linesOf_raggedCode' :
    Code.linesOf 0 raggedCode' = [⟨0, "enum"⟩, ⟨0, ""⟩, ⟨2, "a,"⟩, ⟨0, "end"⟩] := by
  simp [raggedCode', Code.lines]

/-- The two are rendered alike, because at which level an empty line stands is not shown. A switch shows
the same lines behind tabs and behind spaces. -/
theorem rendering_raggedCode :
    (∀ line ∈ Code.linesOf 0 raggedCode, line.Unambiguous "  ") ∧
      Code.render "  " raggedCode = Code.render "  " raggedCode' ∧
      (Code.feedLines (Code.render "  " raggedCode)).map (Code.unindent "  ".toList) =
        [⟨0, "enum"⟩, ⟨0, ""⟩, ⟨2, "a,"⟩, ⟨0, "end"⟩] ∧
      Artifact.emit Mapping.ipProtocols .switch {} = .ok Output.switchOfIpProtocols ∧
      Code.recover "\t" (Output.switchOfIpProtocols.interfaceText .tab) =
        Code.recover "    " (Output.switchOfIpProtocols.interfaceText (.spaces 4)) := by
  obtain ⟨hrender, hunits⟩ := rendering_loses_no_line
  have hcode : ∀ line ∈ Code.linesOf 0 raggedCode, line.Unambiguous "  " := by
    rw [linesOf_raggedCode]
    simp only [List.forall_mem_cons]
    exact ⟨⟨by decide, by decide⟩, ⟨by decide, by decide⟩, ⟨by decide, by decide⟩,
      ⟨by decide, by decide⟩, nofun⟩
  have hcode' : ∀ line ∈ Code.linesOf 0 raggedCode', line.Unambiguous "  " := by
    rw [linesOf_raggedCode']
    simp only [List.forall_mem_cons]
    exact ⟨⟨by decide, by decide⟩, ⟨by decide, by decide⟩, ⟨by decide, by decide⟩,
      ⟨by decide, by decide⟩, nofun⟩
  obtain ⟨-, hlines, hsame⟩ := hrender "  " raggedCode (by decide) (by decide) hcode
  have hemit : Artifact.emit Mapping.ipProtocols .switch {} = .ok Output.switchOfIpProtocols := rfl
  obtain ⟨-, hinterface, -⟩ := hunits _ _ _ _ _ _ _ Mapping.ofSource_ipProtocolsText rfl hemit .tab
    (.spaces 4) nofun nofun
  refine ⟨hcode, (hsame _ hcode').2 ?_, ?_, hemit, hinterface⟩
  · rw [linesOf_raggedCode, linesOf_raggedCode']
    decide
  · rw [hlines, linesOf_raggedCode]
    decide

end Generated

end Switchboard
