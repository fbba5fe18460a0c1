import Switchboard.Proofs.Generated.Declarations
import Switchboard.Proofs.Mapping.Blame
import Switchboard.Proofs.Mapping.Grammar
import Switchboard.Proofs.Plan.Lookup

/-!
The names in a generated class. Its members are the two functions, one slot for each entry and, in a
table dispatcher, the table. Most names that a slot must not have are out of reach for it: the name of a
slot holds no capital and ends with a hexadecimal digit. The words of the generated language and the
table are not, and those are refused when the mapping is read.

The types of the slots are another matter. They are names too and are looked up where the members are,
but what is checked when a mapping is read are the names of the slots. So a handler type may be called
like a member, and then it names no type inside the class (`HidesType`).
-/

namespace Switchboard

/-! ### Slot names -/

namespace Text

/-- The texts `[a-z_][a-z0-9_]*`. -/
def MatchesLowerWord (text : List Char) : Prop :=
  ∃ first rest, text = first :: rest ∧ (('a' ≤ first ∧ first ≤ 'z') ∨ first = '_') ∧
    ∀ c ∈ rest, ('a' ≤ c ∧ c ≤ 'z') ∨ ('0' ≤ c ∧ c ≤ '9') ∨ c = '_'

theorem isUpper_toLower (c : Char) : c.toLower.isUpper = false := by
  delta Char.isUpper Char.toLower
  split <;> grind

/-- A word without capitals. -/
theorem matchesLowerWord_of_isWord {text : String} (h : isWord text)
    (hlower : ∀ c ∈ text.toList, c.isUpper = false) : MatchesLowerWord text.toList := by
  obtain ⟨first, rest, htext, hfirst, hrest⟩ := isWord_iff_matchesWord.1 h
  have hletter {c : Char} (hc : c ∈ first :: rest) (hc' : IsLetter c) : 'a' ≤ c ∧ c ≤ 'z' := by
    refine hc'.resolve_left fun hcapital => ?_
    have hupper : c.isUpper := by
      delta Char.isUpper
      simpa only [Char.le_def, Bool.and_eq_true, decide_eq_true_eq, ge_iff_le] using hcapital
    rw [hlower c (htext ▸ hc)] at hupper
    cases hupper
  refine ⟨first, rest, htext, hfirst.imp_left (hletter List.mem_cons_self), fun c hc => ?_⟩
  exact (hrest c hc).imp_left (hletter (List.mem_cons_of_mem _ hc))

end Text

namespace SlotName

variable (typeName : String) (identifier : Identifier)

theorem isUpper_of_mem {c : Char} (h : c ∈ (of typeName identifier).text.toList) :
    c.isUpper = false := by
  have hdigits : Text.hexDigits.all (!·.isUpper) := by decide
  rw [toList_of, List.mem_append, List.mem_map] at h
  obtain ⟨d, -, rfl⟩ | h := h
  · exact Text.isUpper_toLower d
  · simpa using List.all_eq_true.1 hdigits c (Text.mem_hexDigits_of_mem_toDigits h)

theorem getLast?_mem_hexDigits :
    ∀ c ∈ (of typeName identifier).text.toList.getLast?, c ∈ Text.hexDigits := by
  have hne : Nat.toDigits 16 identifier.toNat ≠ [] := Nat.toDigits_ne_nil
  intro c hc
  rw [toList_of, List.getLast?_append_of_ne_nil _ hne] at hc
  exact Text.mem_hexDigits_of_mem_toDigits (List.mem_of_getLast? hc)

/-- Names that no slot can have: those that hold a capital or do not end with a digit. -/
def isUnreachable (name : String) : Bool :=
  name.toList.any (·.isUpper) || name.toList.getLast?.any (· ∉ Text.hexDigits)

theorem not_mem_of_isUnreachable {names : List String} (h : names.all isUnreachable) :
    (of typeName identifier).text ∉ names := by
  intro hmem
  have hname := List.all_eq_true.1 h _ hmem
  rw [isUnreachable, Bool.or_eq_true, List.any_eq_true, Option.any_eq_true] at hname
  obtain ⟨c, hc, hupper⟩ | ⟨c, hc, hdigit⟩ := hname
  · rw [isUpper_of_mem typeName identifier hc] at hupper
    cases hupper
  · exact of_decide_eq_true hdigit (getLast?_mem_hexDigits typeName identifier c hc)

/-- The name of a slot is longer than its type. -/
theorem of_ne_typeName : (of typeName identifier).text ≠ typeName := by
  intro heq
  have hlength := congrArg (fun name => name.toList.length) heq
  have hne : Nat.toDigits 16 identifier.toNat ≠ [] := Nat.toDigits_ne_nil
  have hpos := List.length_pos_iff.2 hne
  simp only [toList_of, List.length_append, List.length_map] at hlength
  omega

end SlotName

namespace Generated

/-- The keywords and the alternative tokens of the generated language. -/
def languageWords : List String := [
  "alignas", "alignof", "and", "and_eq", "asm", "auto", "bitand", "bitor", "bool", "break",
  "case", "catch", "char", "char8_t", "char16_t", "char32_t", "class", "co_await",
  "co_return", "co_yield", "compl", "concept", "const", "const_cast", "consteval",
  "constexpr", "constinit", "continue", "decltype", "default", "delete", "do", "double",
  "dynamic_cast", "else", "enum", "explicit", "export", "extern", "false", "float", "for",
  "friend", "goto", "if", "inline", "int", "long", "mutable", "namespace", "new", "noexcept",
  "not", "not_eq", "nullptr", "operator", "or", "or_eq", "private", "protected", "public",
  "register", "reinterpret_cast", "requires", "return", "short", "signed", "sizeof",
  "static", "static_assert", "static_cast", "struct", "switch", "template", "this",
  "thread_local", "throw", "true", "try", "typedef", "typeid", "typename", "union",
  "unsigned", "using", "virtual", "void", "volatile", "wchar_t", "while", "xor", "xor_eq"]

theorem languageWords_subset : languageWords ⊆ SlotName.reservedWords := by
  decide +kernel

variable {name source : String} {readConfig config : Config} {mapping : Mapping}
  {strategy : Strategy} {artifact : Artifact} {plan : Plan}

/-! ### Entries and slots -/

/-- Every entry is declared as one slot. -/
theorem slots_perm (h : Plan.ofMapping strategy mapping config = .ok plan) :
    plan.slots.toList.Perm (mapping.entries.map Slot.ofEntry) := by
  rw [Plan.slots_ofMapping h]
  exact Plan.orderedSlots_perm strategy mapping

theorem slotNames_perm (h : Plan.ofMapping strategy mapping config = .ok plan) :
    (plan.slots.toList.map (·.name.text)).Perm
      (mapping.entries.map fun e => (SlotName.ofEntry e).text) := by
  have hperm := (slots_perm h).map (·.name.text)
  rwa [List.map_map] at hperm

theorem nodup_slotNames (h : Plan.ofMapping strategy mapping config = .ok plan) :
    (plan.slots.toList.map (·.name.text)).Nodup := by
  have htext : Function.Injective SlotName.text := fun a b hab => by
    rwa [SlotName.mk.injEq]
  have hnodup := mapping.nodup_slotNames.map htext
  rw [List.map_map] at hnodup
  exact (slotNames_perm h).nodup_iff.2 hnodup

/-- The names of the members, when the plan is laid out for a strategy. -/
theorem map_name_planMembers (h : Plan.ofMapping strategy mapping config = .ok plan) :
    (planMembers plan).map (·.name) = ["lookup", "stringifyAnalyzersState"] ++
      plan.slots.toList.map (·.name.text) ++ (if strategy = .array then ["table"] else []) := by
  have htable : (tableMembers plan).map (·.name) = if strategy = .array then ["table"] else [] := by
    rw [← Plan.strategy_ofMapping h]
    cases plan <;> rfl
  simp [planMembers, slotMember, htable]

/-- No slot is called like a function of its class or like a variable of its function bodies. -/
theorem slotName_not_mem (e : Entry) : (SlotName.ofEntry e).text ∉
    ["lookup", "stringifyAnalyzersState", "identifier", "index", "os"] :=
  SlotName.not_mem_of_isUnreachable _ _ (by decide)

/-- No slot is called like a word of the generated language or like the table. -/
theorem slotName_not_reserved {e : Entry} (he : e ∈ mapping.entries) :
    (SlotName.ofEntry e).text ∉ languageWords ∧ (SlotName.ofEntry e).text ≠ "table" := by
  have hreserved := Mapping.isReserved_eq_false_iff.1 (mapping.not_reserved e he)
  refine ⟨fun hmem => hreserved (languageWords_subset hmem), fun htable => hreserved ?_⟩
  rw [htable]
  decide

theorem members?_of_emit (hmapping : Mapping.ofSource name source readConfig = .ok mapping)
    (htarget : config.target = Target.standard)
    (hemit : Artifact.emit mapping strategy config = .ok artifact) :
    Plan.ofMapping strategy mapping config = .ok artifact.plan ∧
      members? artifact.interface = some (planMembers artifact.plan) ∧
      (bindings artifact.implementation).map (·.name) =
        ["identifier"] ++ (if strategy = .array then ["index"] else []) ++ ["os"] := by
  obtain ⟨plan, hplan, rfl⟩ := Except.map_eq_ok_iff.1 hemit
  have hslots : ∀ slot ∈ plan.slots, slot ∈ mapping.slots := fun slot => (Plan.mem_slots hplan).1
  have hnames : ∀ slot ∈ plan.slots, Text.isWord slot.name.text := fun slot hslot =>
    Mapping.isWord_slotName_of_ofSource hmapping slot (hslots slot hslot)
  have htypes : ∀ slot ∈ plan.slots, Text.isWord slot.typeName := fun slot hslot =>
    Mapping.isWord_typeName_of_ofSource hmapping slot (hslots slot hslot)
  have hclass : '(' ∉ (plan.strategy.className mapping.name).toList := fun hmem =>
    absurd (plan.strategy.isWordChar_of_mem_className mapping.name_isWordTail _ hmem) (by decide)
  refine ⟨hplan, ?_, ?_⟩
  · rw [htarget]
    exact members?_interfaceUnit _ htypes hnames
  · rw [htarget]
    refine (congrArg _ (bindings_implementationUnit hclass hnames)).trans ?_
    rw [← Plan.strategy_ofMapping hplan]
    cases plan <;> rfl

theorem nodup_memberNames (h : Plan.ofMapping strategy mapping config = .ok plan) :
    ((planMembers plan).map (·.name)).Nodup := by
  have hslot : ∀ name ∈ plan.slots.toList.map (·.name.text),
      name ∉ ["lookup", "stringifyAnalyzersState"] ∧ name ≠ "table" := by
    intro name hname
    obtain ⟨e, he, rfl⟩ := List.mem_map.1 ((slotNames_perm h).subset hname)
    refine ⟨fun hmem => slotName_not_mem e ?_, (slotName_not_reserved he).2⟩
    exact List.mem_append_left ["identifier", "index", "os"] hmem
  have htable : ∀ name ∈ (if strategy = .array then ["table"] else []), name = "table" := by
    split <;> simp
  rw [map_name_planMembers h, List.append_assoc, List.nodup_append, List.nodup_append]
  -- The functions, the slots and the table each have different names, and no name occurs in two parts.
  refine ⟨by decide, ⟨nodup_slotNames h, by split <;> simp, ?_⟩, ?_⟩
  · rintro name hname _ hother rfl
    exact (hslot name hname).2 (htable name hother)
  · rintro name hname _ hother rfl
    rcases List.mem_append.1 hother with hother | hother
    · exact (hslot name hother).1 hname
    · rw [htable name hother] at hname
      exact absurd hname (by decide)

theorem emit_ipProtocols :
    ∃ artifact, Artifact.emit Mapping.ipProtocols .array {} = .ok artifact := by
  obtain ⟨plan, hplan⟩ := Plan.ofMapping_ipProtocols
  exact ⟨_, Except.map_eq_ok_iff.2 ⟨plan, hplan, rfl⟩⟩

/-- The names in a generated class never clash. Whatever mapping is read from a text, the members that
its class declares are the two functions, one slot for each entry and, in a table dispatcher, the
table, and they have pairwise different names. The name of a slot is a word in lower case, it is no
word of the generated language, and no parameter or variable of a function body has it. -/
theorem members_never_clash (hmapping : Mapping.ofSource name source readConfig = .ok mapping)
    (htarget : config.target = Target.standard)
    (hemit : Artifact.emit mapping strategy config = .ok artifact) :
    ∃ members slotNames, members? artifact.interface = some members ∧
      slotNames.Perm (mapping.entries.map fun e => (SlotName.ofEntry e).text) ∧
      members.map (·.name) = ["lookup", "stringifyAnalyzersState"] ++ slotNames ++
        (if strategy = .array then ["table"] else []) ∧
      (members.map (·.name)).Nodup ∧
      (bindings artifact.implementation).map (·.name) =
        ["identifier"] ++ (if strategy = .array then ["index"] else []) ++ ["os"] ∧
      ∀ slotName ∈ slotNames, Text.MatchesLowerWord slotName.toList ∧
        slotName ∉ languageWords ∧ slotName ∉ ["identifier", "index", "os"] ∧
        slotName ∉ (bindings artifact.implementation).map (·.name) := by
  obtain ⟨hplan, hmembers, hbindings⟩ := members?_of_emit hmapping htarget hemit
  have hperm := slotNames_perm hplan
  have hbound : (bindings artifact.implementation).map (·.name) ⊆ ["identifier", "index", "os"] := by
    rw [hbindings]
    split <;> decide
  refine ⟨_, _, hmembers, hperm, map_name_planMembers hplan, nodup_memberNames hplan, hbindings,
    fun slotName hslotName => ?_⟩
  obtain ⟨e, he, rfl⟩ := List.mem_map.1 (hperm.subset hslotName)
  have hword : Text.isWord e.typeName :=
    Mapping.isWord_of_readEntries (Mapping.ofSource_eq_ok hmapping).2 e he
  have hvariable : (SlotName.ofEntry e).text ∉ ["identifier", "index", "os"] := fun hmem =>
    slotName_not_mem e (List.mem_append_right ["lookup", "stringifyAnalyzersState"] hmem)
  refine ⟨?_, (slotName_not_reserved he).1, hvariable, fun hmem => hvariable (hbound hmem)⟩
  exact Text.matchesLowerWord_of_isWord (SlotName.isWord_of hword e.identifier) fun c hc =>
    SlotName.isUpper_of_mem _ _ hc

/-- The class of a table over three protocols. -/
theorem members_ipProtocols :
    Mapping.ofSource "ip" Mapping.ipProtocolsText {} = .ok Mapping.ipProtocols ∧
      ∃ artifact members, Artifact.emit Mapping.ipProtocols .array {} = .ok artifact ∧
        members? artifact.interface = some members ∧ (members.map (·.name)).Nodup ∧
        "tcpanalyzer6" ∈ members.map (·.name) ∧ "table" ∈ members.map (·.name) := by
  obtain ⟨artifact, hemit⟩ := emit_ipProtocols
  obtain ⟨members, slotNames, hmembers, hperm, hnames, hnodup, -⟩ :=
    members_never_clash Mapping.ofSource_ipProtocolsText rfl hemit
  have hslot : "tcpanalyzer6" ∈ slotNames := hperm.mem_iff.2 (by decide)
  refine ⟨Mapping.ofSource_ipProtocolsText, artifact, members, hemit, hmembers, hnodup, ?_, ?_⟩
  · simp [hnames, hslot]
  · simp [hnames]

/-! ### Types -/

/-- A type of a slot is the name of a member, so that it names no type where the slot is declared. -/
def HidesType (members : List Declaration) : Prop :=
  ∃ member ∈ members, member.mark = ';' ∧ member.type ∈ members.map (·.name)

instance (members : List Declaration) : Decidable (HidesType members) :=
  inferInstanceAs (Decidable (∃ member ∈ members, _ ∧ _))

theorem hidesType_planMembers_iff (h : Plan.ofMapping strategy mapping config = .ok plan) :
    HidesType (planMembers plan) ↔
      ∃ e ∈ mapping.entries, e.typeName ∈ (planMembers plan).map (·.name) := by
  have hslotMember : ∀ member ∈ planMembers plan, member.mark = ';' →
      member ∈ plan.slots.toList.map slotMember := by
    intro member hmember hmark
    rw [planMembers, List.mem_append, List.mem_append] at hmember
    rcases hmember with (hfunction | hslot) | htable
    · simp only [List.mem_cons, List.not_mem_nil, or_false] at hfunction
      rcases hfunction with rfl | rfl <;> exact absurd hmark (by decide)
    · exact hslot
    · cases plan with
      | switch _ => cases htable
      | chain _ => cases htable
      | array _ =>
          rw [List.mem_singleton.1 htable] at hmark
          exact absurd hmark (by decide)
  constructor
  · rintro ⟨member, hmember, hmark, htype⟩
    obtain ⟨slot, hslot, rfl⟩ := List.mem_map.1 (hslotMember member hmember hmark)
    obtain ⟨e, he, rfl⟩ := List.mem_map.1 ((slots_perm h).subset hslot)
    exact ⟨e, he, htype⟩
  · rintro ⟨e, he, htype⟩
    have hslot := (slots_perm h).mem_iff.2 (List.mem_map_of_mem he)
    refine ⟨slotMember (Slot.ofEntry e), ?_, rfl, htype⟩
    exact List.mem_append_left _ (List.mem_append_right _ (List.mem_map_of_mem hslot))

/-- When a class hides a type. Nothing that is checked keeps the type of a slot from being the name of
a member: it may be called like a function of the class, like the table if there is one, or like the
slot of another entry. In all other cases no type is hidden. -/
theorem hidesType_iff (hmapping : Mapping.ofSource name source readConfig = .ok mapping)
    (htarget : config.target = Target.standard)
    (hemit : Artifact.emit mapping strategy config = .ok artifact) :
    ∃ members, members? artifact.interface = some members ∧
      (HidesType members ↔ ∃ e ∈ mapping.entries,
        e.typeName = "lookup" ∨ e.typeName = "stringifyAnalyzersState" ∨
          (∃ other ∈ mapping.entries, other.identifier ≠ e.identifier ∧
            e.typeName = Text.lowercase other.typeName ++ other.identifier.hex) ∨
          (strategy = .array ∧ e.typeName = "table")) := by
  obtain ⟨hplan, hmembers, -⟩ := members?_of_emit hmapping htarget hemit
  have hother {e : Entry} (he : e ∈ mapping.entries) :
      e.typeName ∈ artifact.plan.slots.toList.map (·.name.text) ↔
        ∃ other ∈ mapping.entries, other.identifier ≠ e.identifier ∧
          e.typeName = Text.lowercase other.typeName ++ other.identifier.hex := by
    rw [(slotNames_perm hplan).mem_iff, List.mem_map]
    constructor
    · rintro ⟨other, hother, hname⟩
      -- The slot of the entry itself is out of the question, because it is longer than the type.
      refine ⟨other, hother, fun hidentifier => ?_, hname.symm⟩
      obtain rfl := mapping.eq_of_identifier_eq hother he hidentifier
      exact SlotName.of_ne_typeName _ _ hname
    · rintro ⟨other, hother, -, hname⟩
      exact ⟨other, hother, hname.symm⟩
  have htable (e : Entry) : e.typeName ∈ (if strategy = .array then ["table"] else []) ↔
      strategy = .array ∧ e.typeName = "table" := by
    split <;> next harray => simp [harray]
  refine ⟨_, hmembers, (hidesType_planMembers_iff hplan).trans ?_⟩
  rw [map_name_planMembers hplan]
  refine exists_congr fun e => and_congr_right fun he => ?_
  rw [List.mem_append, List.mem_append, hother he, htable]
  simp only [List.mem_cons, List.not_mem_nil, or_false, or_assoc]

theorem hidesType_ipProtocols :
    Mapping.ofSource "ip" Mapping.ipProtocolsText {} = .ok Mapping.ipProtocols ∧
      ∃ artifact members, Artifact.emit Mapping.ipProtocols .array {} = .ok artifact ∧
        members? artifact.interface = some members ∧ ¬ HidesType members := by
  obtain ⟨artifact, hemit⟩ := emit_ipProtocols
  obtain ⟨members, hmembers, hiff⟩ := hidesType_iff Mapping.ofSource_ipProtocolsText rfl hemit
  refine ⟨Mapping.ofSource_ipProtocolsText, artifact, members, hemit, hmembers, ?_⟩
  rw [hiff]
  decide

/-- A handler type that is called like the slot of the entry before it. -/
def likeSlot : Mapping where
  name := "m"
  entries := [⟨1, "A", 2⟩, ⟨2, "a1", 3⟩]
  name_isWordTail := by decide
  nodup_identifiers := by decide
  nodup_slotNames := by decide
  not_reserved := by decide

/-- Such a type passes every check, and the class declares `a1 a12;` behind `A a1;`. -/
theorem hidesType_likeSlot :
    Mapping.ofSource "m" "# ANALYZERS\n1 A\n2 a1\n" {} = .ok likeSlot ∧
      ∃ artifact members, Artifact.emit likeSlot .chain {} = .ok artifact ∧
        members? artifact.interface = some members ∧ HidesType members := by
  have hread : Mapping.readEntries likeSlot.name "# ANALYZERS\n1 A\n2 a1\n" {} =
      .ok likeSlot.entries := by rfl
  refine ⟨Mapping.ofSource_of_readEntries hread, _, planMembers (.chain (.ofMapping likeSlot)), rfl,
    ?_, ?_⟩
  · decide +kernel
  · decide +kernel

end Generated

end Switchboard
