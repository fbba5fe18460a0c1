import Switchboard.Proofs.Generated.Reader
import Switchboard.Proofs.Mapping.Names

/-!
What is written is read back. First the parts of a line, then the statements of each shape, then the
body of a lookup function under each strategy and the two units of a class.

The null pointer is taken to be written with word characters only (`Text.isWordTail`), which holds of
every name of the generated language and of `0`. So it is neither an address nor a cell, and holds no
operator.
-/

namespace Switchboard.Generated

variable {null : String}

/-! ### Parts of a line -/

/-- What is written item by item is read item by item. -/
theorem mapM_map_eq_some {α β γ : Type} {write : α → β} {read? : β → Option γ} {value : α → γ}
    {items : List α} (h : ∀ item ∈ items, read? (write item) = some (value item)) :
    (items.map write).mapM read? = some (items.map value) := by
  induction items with
  | nil => rfl
  | cons item rest ih =>
      obtain ⟨hitem, hrest⟩ := List.forall_mem_cons.1 h
      rw [List.map_cons, List.mapM_cons, hitem, ih hrest]
      rfl

@[simp] theorem between?_append (opening closing : String) (text : List Char) :
    between? opening closing (opening.toList ++ (text ++ closing.toList)) = some text := by
  simp [between?, List.dropPrefix?_append_of_beq, List.dropSuffix?_eq_some_iff]

/-- Nothing stands behind an opening that the text does not begin like. -/
theorem between?_of_head?_ne {opening closing : String} {text : List Char} {a b : Char}
    (hopening : opening.toList.head? = some a) (htext : text.head? = some b) (hne : a ≠ b) :
    between? opening closing text = none := by
  obtain ⟨rest, hopening⟩ := List.head?_eq_some_iff.1 hopening
  obtain ⟨more, rfl⟩ := List.head?_eq_some_iff.1 htext
  have hprefix : (b :: more).dropPrefix? (a :: rest) = none := by
    simp [List.dropPrefix?, Ne.symm hne]
  rw [between?, hopening, hprefix, Option.bind_none]

@[simp] theorem hexLiteral?_literal (identifier : Identifier) :
    hexLiteral? identifier.literal.toList = some identifier.toNat := by
  have h : identifier.literal.toList = "0x".toList ++ (Text.hex identifier.toNat).toList := by
    simp [Identifier.literal, Text.hexLiteral]
  rw [hexLiteral?, h, List.dropPrefix?_append_of_beq _ (by simp)]
  exact Text.hexValue?_hex identifier.toNat

@[simp] theorem decimalLiteral?_toDigits (n : Nat) :
    decimalLiteral? (Nat.toDigits 10 n) = some n := by
  simp [decimalLiteral?, Nat.ofDigitChars_ten_toDigits]

theorem not_mem_of_isWordTail (hnull : Text.isWordTail null) {c : Char}
    (hc : Text.isWordChar c = false) : c ∉ null.toList := by
  intro hmem
  have := (Text.isWordTail_eq_true_iff.1 hnull).2 c hmem
  rw [hc] at this
  cases this

/-- No blank stands in a type that was read, and so none in the name of a slot. -/
theorem blank_not_mem_of_ofSource {name source : String} {config : Config} {mapping : Mapping}
    (h : Mapping.ofSource name source config = .ok mapping) : ∀ slot ∈ mapping.slots,
      ' ' ∉ slot.typeName.toList ∧ ' ' ∉ slot.name.text.toList := by
  have hblank {word : String} (hword : Text.isWord word) : ' ' ∉ word.toList :=
    not_mem_of_isWordTail (Text.isWordTail_of_isWord hword) (by decide)
  exact fun slot hslot => ⟨hblank (Mapping.isWord_typeName_of_ofSource h slot hslot),
    hblank (Mapping.isWord_slotName_of_ofSource h slot hslot)⟩

theorem not_mem_literal (identifier : Identifier) {c : Char} (hc : Text.isWordChar c = false) :
    c ∉ identifier.literal.toList := by
  have hzero : "0x".toList.all Text.isWordChar := by decide
  intro hmem
  simp only [Identifier.literal, Text.hexLiteral, String.toList_append, Text.toList_hex,
    List.mem_append] at hmem
  have hword : Text.isWordChar c :=
    hmem.elim (List.all_eq_true.1 hzero c) Text.isWordChar_of_mem_toDigits
  rw [hc] at hword
  cases hword

@[simp] theorem expression?_null : expression? null null.toList = some .null := by
  simp [expression?]

theorem expression?_cell (hnull : Text.isWordTail null) :
    expression? null "table[index]".toList = some .cell := by
  have hne : "table[index]".toList ≠ null.toList := by
    intro heq
    exact not_mem_of_isWordTail hnull (c := '[') (by decide) (heq ▸ by decide)
  unfold expression?
  rw [if_neg hne, if_pos rfl]

theorem expression?_address (hnull : Text.isWordTail null) {name : String}
    (hname : Text.isWord name) :
    expression? null ('&' :: name.toList) = some (.address name) := by
  have hne : '&' :: name.toList ≠ null.toList := by
    intro heq
    exact not_mem_of_isWordTail hnull (c := '&') (by decide) (heq ▸ List.mem_cons_self)
  simp [expression?, hne, hname]

theorem conjuncts_cons {c : Char} {text : List Char}
    (h : ∀ rest, c = ' ' → text ≠ '&' :: '&' :: ' ' :: rest) :
    conjuncts (c :: text) = (conjuncts text).modifyHead (c :: ·) := by
  rw [conjuncts]
  exact h

theorem conjuncts_of_not_mem {text : List Char} (h : '&' ∉ text) : conjuncts text = [text] := by
  induction text with
  | nil => rfl
  | cons c text ih =>
      rw [List.mem_cons, not_or] at h
      rw [conjuncts_cons, ih h.2]
      · rfl
      · rintro rest - rfl
        exact h.2 List.mem_cons_self

theorem conjuncts_append {text : List Char} (h : '&' ∉ text) (rest : List Char) :
    conjuncts (text ++ (" && ".toList ++ rest)) = text :: conjuncts rest := by
  induction text with
  | nil => rfl
  | cons c text ih =>
      rw [List.mem_cons, not_or] at h
      rw [List.cons_append, conjuncts_cons, ih h.2]
      · rfl
      -- The operator begins with a blank, so a blank before it is not the one that ends a piece.
      · rintro more - heq
        cases text with
        | nil => simp at heq
        | cons d text =>
            rw [List.cons_append, List.cons.injEq] at heq
            exact h.2 (heq.1 ▸ List.mem_cons_self)

theorem test?_identifierIs (identifier : Identifier) :
    test? null ("identifier == ".toList ++ identifier.literal.toList) =
      some (.identifierIs identifier.toNat) := by
  have hsign : "identifier == ".toList ++ identifier.literal.toList ≠ "index >= 0".toList := by
    simp
  have hcell : "identifier == ".toList ++ identifier.literal.toList ≠
      "table[index] != ".toList ++ null.toList := by
    simp
  have hbound : ("identifier == ".toList ++ identifier.literal.toList).dropPrefix?
      "index < ".toList = none := by
    simp [List.dropPrefix?]
  rw [test?, if_neg hsign, if_neg hcell, hbound, List.dropPrefix?_append_of_beq _ (by simp)]
  simp

theorem tests?_identifierIs (identifier : Identifier) :
    tests? null ("identifier == ".toList ++ identifier.literal.toList) =
      some [.identifierIs identifier.toNat] := by
  have hliteral := not_mem_literal identifier (c := '&') (by decide)
  have hmem : '&' ∉ "identifier == ".toList ++ identifier.literal.toList := by
    simp [hliteral]
  rw [tests?, conjuncts_of_not_mem hmem, List.mapM_cons, test?_identifierIs]
  rfl

theorem tests?_guard (hnull : Text.isWordTail null) (n : Nat) :
    tests? null ("index >= 0 && index < ".toList ++
        (Nat.toDigits 10 n ++ (" && table[index] != ".toList ++ null.toList))) =
      some [.indexNotNegative, .indexBelow n, .cellNotNull] := by
  have hdigits : '&' ∉ Nat.toDigits 10 n := by
    intro hmem
    exact absurd (Nat.isDigit_of_mem_toDigits (by decide) (by decide) hmem) (by decide)
  have hsplit : conjuncts ("index >= 0 && index < ".toList ++
        (Nat.toDigits 10 n ++ (" && table[index] != ".toList ++ null.toList))) =
      ["index >= 0".toList, "index < ".toList ++ Nat.toDigits 10 n,
        "table[index] != ".toList ++ null.toList] := by
    have hnull' := not_mem_of_isWordTail hnull (c := '&') (by decide)
    have hsign (rest : List Char) :
        conjuncts ("index >= 0".toList ++ (" && ".toList ++ rest)) =
          "index >= 0".toList :: conjuncts rest :=
      conjuncts_append (by simp) rest
    have hbound (rest : List Char) :
        conjuncts (("index < ".toList ++ Nat.toDigits 10 n) ++ (" && ".toList ++ rest)) =
          ("index < ".toList ++ Nat.toDigits 10 n) :: conjuncts rest :=
      conjuncts_append (by simp [hdigits]) rest
    have hcell : conjuncts ("table[index] != ".toList ++ null.toList) =
        ["table[index] != ".toList ++ null.toList] :=
      conjuncts_of_not_mem (by simp [hnull'])
    rw [← hcell, ← hbound, ← hsign]
    simp
  rw [tests?, hsplit]
  simp [test?, List.dropPrefix?]

@[simp] theorem label?_literal (identifier : Identifier) :
    label? ("case ".toList ++ (identifier.literal.toList ++ ":".toList)) =
      some (.number identifier.toNat) := by
  rw [label?, if_neg (by simp), between?_append]
  simp

theorem returned?_returnSlot (hnull : Text.isWordTail null) {slot : Slot}
    (hname : Text.isWord slot.name.text) :
    returned? null (Artifact.returnSlot slot) = some (.address slot.name.text) := by
  have h : ("return &" ++ slot.name.text ++ ";").toList =
      "return ".toList ++ (('&' :: slot.name.text.toList) ++ ";".toList) := by simp
  simp only [returned?, Artifact.returnSlot, h, between?_append, Option.bind_some]
  exact expression?_address hnull hname

@[simp] theorem returned?_returnNull (target : Target) :
    returned? target.null (Artifact.returnNull target) = some .null := by
  have h : ("return " ++ target.null ++ ";").toList =
      "return ".toList ++ (target.null.toList ++ ";".toList) := by simp
  simp only [returned?, Artifact.returnNull, h, between?_append, Option.bind_some, expression?_null]

/-! ### Statements

One equation for each shape: what a line and its body are read as, once the parts are read. -/

theorem statements?_simple {text : String} {rest : List Code} {statement : Statement}
    {statements : List Statement} (hblock : ∀ items more, rest ≠ .block items :: more)
    (htext : simple? null text = some statement) (hrest : statements? null rest = some statements) :
    statements? null (.line text :: rest) = some (statement :: statements) := by
  rw [statements?]
  · rw [htext, hrest]
    rfl
  · exact fun items more heq _ => hblock items _ heq
  · exact hblock

theorem statements?_switch {items : List Code} {sections : List Section}
    (hitems : sections? null items = some sections) :
    statements? null [.line "switch (identifier) \x7b", .block items, .line "\x7d"] =
      some [.switch sections] := by
  simp [statements?, hitems]

theorem statements?_chain {text : String} {items rest : List Code} {tests : List Test}
    {values : List Expression} {arms : List Arm} {statements : List Statement}
    (hne : text ≠ "switch (identifier) \x7b")
    (htests : (between? "if (" ") \x7b" text.toList).bind (tests? null) = some tests)
    (hvalues : items.mapM (returned? null) = some values)
    (hrest : arms? null rest = some (arms, statements)) :
    statements? null (.line text :: .block items :: rest) =
      some (.chain ((tests, values) :: arms) :: statements) := by
  rw [statements?, htests, hvalues, hrest]
  · rfl
  · exact fun _ heq => absurd heq hne

theorem arms?_arm {text : String} {items rest : List Code} {tests : List Test}
    {values : List Expression} {arms : List Arm} {statements : List Statement}
    (htests : (between? "\x7d else if (" ") \x7b" text.toList).bind (tests? null) = some tests)
    (hvalues : items.mapM (returned? null) = some values)
    (hrest : arms? null rest = some (arms, statements)) :
    arms? null (.line text :: .block items :: rest) = some ((tests, values) :: arms, statements) := by
  rw [arms?, htests, hvalues, hrest]
  rfl

theorem arms?_end {rest : List Code} {statements : List Statement}
    (hblock : ∀ items more, rest ≠ .block items :: more)
    (hrest : statements? null rest = some statements) :
    arms? null (.line "\x7d" :: rest) = some ([], statements) := by
  rw [arms?]
  · simp [hrest]
  · exact hblock

theorem statements?_returnNull (target : Target) :
    statements? target.null [Artifact.returnNull target] = some [.answer .null] := by
  refine statements?_simple (by simp) ?_ rfl
  have h := returned?_returnNull target
  rw [Artifact.returnNull] at h
  rw [simple?, h]

/-! ### Bodies -/

/-- The pointer to a slot, which is null without one. -/
def pointerTo : Option Slot → Pointer
  | some slot => .member slot.name.text
  | none => .null

/-- The section of a slot. -/
def sectionOf (slot : Slot) : Section :=
  (.number slot.identifier.toNat, [.address slot.name.text])

/-- The section that answers with nothing. -/
def defaultSection : Section :=
  (.default, [.null])

/-- The arm of a slot. -/
def armOf (slot : Slot) : Arm :=
  ([.identifierIs slot.identifier.toNat], [.address slot.name.text])

section Bodies

variable {target : Target} (hnull : Text.isWordTail target.null)

include hnull

theorem mapM_returnSlot {slot : Slot} (hname : Text.isWord slot.name.text) :
    [Artifact.returnSlot slot].mapM (returned? target.null) = some [.address slot.name.text] := by
  simp [returned?_returnSlot hnull hname]

theorem sections?_cases {slots : List Slot}
    (hnames : ∀ slot ∈ slots, Text.isWord slot.name.text) :
    sections? target.null (slots.flatMap Artifact.switchCase ++
        [.line "default:", .block [Artifact.returnNull target]]) =
      some (slots.map sectionOf ++ [defaultSection]) := by
  induction slots with
  | nil => simp [sections?, label?, defaultSection]
  | cons slot rest ih =>
      have hslot := mapM_returnSlot hnull (hnames slot List.mem_cons_self)
      have hrest := ih fun s hs => hnames s (List.mem_cons_of_mem _ hs)
      have hlabel : label? ("case " ++ slot.identifier.literal ++ ":").toList =
          some (.number slot.identifier.toNat) := by
        rw [String.toList_append, String.toList_append, List.append_assoc]
        exact label?_literal slot.identifier
      simp only [List.flatMap_cons, Artifact.switchCase, List.cons_append, List.nil_append]
      rw [sections?, hlabel, hslot, hrest]
      rfl

theorem statements?_switchBody {plan : SwitchPlan}
    (hnames : ∀ slot ∈ plan.cases.toList, Text.isWord slot.name.text) :
    statements? target.null (Artifact.switchBody target plan) =
      some [.switch (plan.cases.toList.map sectionOf ++ [defaultSection])] :=
  statements?_switch (sections?_cases hnull hnames)

omit hnull in
theorem toList_chainTest (slot : Slot) :
    (Artifact.chainTest slot).toList = "if (".toList ++
      (("identifier == ".toList ++ slot.identifier.literal.toList) ++ ") \x7b".toList) := by
  unfold Artifact.chainTest
  simp

omit hnull in
theorem tests?_chainTest {opening leading : String} (hopening : opening = leading ++ "if (")
    (slot : Slot) :
    (between? opening ") \x7b" (leading ++ Artifact.chainTest slot).toList).bind
        (tests? target.null) = some [.identifierIs slot.identifier.toNat] := by
  have h : (leading ++ Artifact.chainTest slot).toList = opening.toList ++
      (("identifier == ".toList ++ slot.identifier.literal.toList) ++ ") \x7b".toList) := by
    rw [hopening, String.toList_append, String.toList_append, toList_chainTest, List.append_assoc,
      List.append_assoc]
  rw [h, between?_append, Option.bind_some, tests?_identifierIs]

theorem arms?_chainRest {slots : List Slot}
    (hnames : ∀ slot ∈ slots, Text.isWord slot.name.text) :
    arms? target.null (Artifact.chainRest slots ++ [Artifact.returnNull target]) =
      some (slots.map armOf, [.answer .null]) := by
  induction slots with
  | nil => exact arms?_end (by simp [Artifact.returnNull]) (statements?_returnNull target)
  | cons slot rest ih =>
      rw [Artifact.chainRest, List.cons_append, List.cons_append]
      exact arms?_arm (tests?_chainTest (by simp) slot)
        (mapM_returnSlot hnull (hnames slot List.mem_cons_self))
        (ih fun s hs => hnames s (List.mem_cons_of_mem _ hs))

/-- The statements of a chain of comparisons; without slots there is none. -/
def chainStatements : List Slot → List Statement
  | [] => [.answer .null]
  | slots => [.chain (slots.map armOf), .answer .null]

theorem statements?_chainBody {plan : ChainPlan}
    (hnames : ∀ slot ∈ plan.tests.toList, Text.isWord slot.name.text) :
    statements? target.null (Artifact.chainBody target plan) =
      some (chainStatements plan.tests.toList) := by
  unfold Artifact.chainBody
  split
  · next hnil =>
    rw [hnil]
    exact statements?_returnNull target
  · next slot rest hcons =>
    rw [hcons] at hnames ⊢
    have hne : Artifact.chainTest slot ≠ "switch (identifier) \x7b" := by
      rw [Ne, ← String.toList_inj, toList_chainTest]
      simp
    have htests : (between? "if (" ") \x7b" ("" ++ Artifact.chainTest slot).toList).bind
        (tests? target.null) = some [.identifierIs slot.identifier.toNat] :=
      tests?_chainTest (by simp) slot
    rw [String.empty_append] at htests
    exact statements?_chain hne htests (mapM_returnSlot hnull (hnames slot List.mem_cons_self))
      (arms?_chainRest hnull fun s hs => hnames s (List.mem_cons_of_mem _ hs))

omit hnull in
theorem simple?_rebase (identifier : Identifier) :
    simple? null ("int64_t index = static_cast<int64_t>(identifier) - " ++ identifier.literal ++
      ";") = some (.rebase identifier.toNat) := by
  have hhead : ("int64_t index = static_cast<int64_t>(identifier) - " ++ identifier.literal ++
      ";").toList.head? = some 'i' := by
    simp only [String.toList_append, List.head?_append]
    rfl
  have hnone : returned? null (.line ("int64_t index = static_cast<int64_t>(identifier) - " ++
      identifier.literal ++ ";")) = none := by
    rw [returned?, between?_of_head?_ne rfl hhead (by decide), Option.bind_none]
  rw [simple?, hnone]
  simp only [String.toList_append, List.append_assoc, between?_append, Option.bind_some,
    hexLiteral?_literal, Option.map_some]

theorem statements?_tableBody (plan : TablePlan) :
    statements? target.null (Artifact.tableBody target plan) =
      some [.rebase plan.lo.toNat,
        .chain [([.indexNotNegative, .indexBelow plan.length, .cellNotNull], [.cell])],
        .answer .null] := by
  refine statements?_simple (by simp) (simple?_rebase plan.lo) ?_
  refine statements?_chain ?_ ?_ ?_
    (arms?_end (by simp [Artifact.returnNull]) (statements?_returnNull target))
  · intro heq
    simpa using congrArg (fun s => s.toList.head?) heq
  · have h : ("if (index >= 0 && index < " ++ toString plan.length ++ " && table[index] != " ++
        target.null ++ ") \x7b").toList = "if (".toList ++ (("index >= 0 && index < ".toList ++
        (Nat.toDigits 10 plan.length ++ (" && table[index] != ".toList ++ target.null.toList))) ++
          ") \x7b".toList) := by
      simp
    rw [h, between?_append, Option.bind_some, tests?_guard hnull]
  · have h : "return table[index];".toList =
        "return ".toList ++ ("table[index]".toList ++ ";".toList) := by simp
    have hcell : returned? target.null (.line "return table[index];") = some .cell := by
      rw [returned?, h, between?_append, Option.bind_some, expression?_cell hnull]
    simp [hcell]

theorem initialiser?_tableEntry {entry : Option Slot}
    (hname : ∀ slot, entry = some slot → Text.isWord slot.name.text) :
    initialiser? target.null (Artifact.tableEntry target entry) = some (pointerTo entry) := by
  have hcomma (text : String) : (text ++ ",").toList.dropSuffix? ",".toList = some text.toList := by
    simp [List.dropSuffix?_eq_some_iff]
  cases entry with
  | none =>
      simp only [Artifact.tableEntry, initialiser?, hcomma, Option.bind_some, expression?_null,
        pointerTo]
  | some slot =>
      have h : ("&" ++ slot.name.text).toList = '&' :: slot.name.text.toList := by simp
      simp only [Artifact.tableEntry, initialiser?, hcomma, Option.bind_some, h,
        expression?_address hnull (hname slot rfl), pointerTo]

theorem mapM_initialiser? {entries : List (Option Slot)}
    (hnames : ∀ slot, some slot ∈ entries → Text.isWord slot.name.text) :
    (entries.map (Artifact.tableEntry target)).mapM (initialiser? target.null) =
      some (entries.map pointerTo) := by
  refine mapM_map_eq_some fun entry hentry => initialiser?_tableEntry hnull ?_
  rintro slot rfl
  exact hnames slot hentry

end Bodies

/-! ### Units -/

theorem blockUnder?_lines {heading : String} {texts : List String}
    (hne : ∀ text ∈ texts, text ≠ heading) (rest : List Code) :
    blockUnder? heading (texts.map .line ++ rest) = blockUnder? heading rest := by
  induction texts with
  | nil => rfl
  | cons text texts ih =>
      rw [List.map_cons, List.cons_append, blockUnder?, if_neg (hne text List.mem_cons_self)]
      exact ih fun t ht => hne t (List.mem_cons_of_mem _ ht)

theorem blockUnder?_heading (heading : String) (items rest : List Code) :
    blockUnder? heading (.line heading :: .block items :: rest) = some items := by
  rw [blockUnder?, if_pos rfl, headBlock?]

/-- The private members of a class are the state method, the slots and what the plan adds. -/
theorem blockUnder?_interface (target : Target) (className : String) (plan : Plan) :
    blockUnder? "private:" (Artifact.interfaceUnit target className plan) =
      some (.line ("void " ++ target.stateMethod ++ "(std::ostream &os) const override;") ::
        (plan.slots.toList.map Artifact.memberLine ++ Artifact.extraMembers target plan)) := by
  have hincludes : target.includes.map Artifact.includeLine =
      (target.includes.map fun header => "#include \"" ++ header ++ "\"").map .line := by
    simp [Artifact.includeLine]
  have hheader : ∀ text ∈ target.includes.map fun header => "#include \"" ++ header ++ "\"",
      text ≠ "private:" := by
    intro text htext
    obtain ⟨header, -, rfl⟩ := List.mem_map.1 htext
    rw [Ne, ← String.toList_inj]
    simp
  -- The line of the class ends with a brace, whatever the class and its base are called.
  have hclass : "class " ++ className ++ " : public " ++ target.baseClass ++ " \x7b" ≠ "private:" := by
    rw [Ne, ← String.toList_inj]
    simp
  simp only [Artifact.interfaceUnit, List.cons_append, List.nil_append, hincludes]
  rw [blockUnder?, if_neg (by decide), blockUnder?, if_neg (by decide), blockUnder?_lines hheader,
    blockUnder?, if_neg (by decide), blockUnder?, if_neg hclass, blockUnder?, if_neg (by decide),
    blockUnder?, blockUnder?_heading]

theorem blockUnder?_implementation (target : Target) (className : String) (plan : Plan) :
    blockUnder? (signature target className)
        (Artifact.implementationUnit target className plan) =
      some (Artifact.lookupBody target plan) := by
  have hinclude : "#include \"" ++ (target.includePrefix ++ "/" ++ className ++ ".h") ++ "\"" ≠
      signature target className := by
    -- One ends with a quote, the other with a brace.
    intro heq
    have hlast := congrArg (fun s => s.toList.getLast?) heq
    simp only [signature, String.toList_append, List.getLast?_append] at hlast
    exact absurd hlast (by simp)
  have hempty : "" ≠ signature target className := by
    rw [Ne, ← String.toList_inj]
    simp [signature]
  rw [Artifact.implementationUnit, Artifact.includeLine, blockUnder?, if_neg hinclude, blockUnder?,
    if_neg hempty]
  exact blockUnder?_heading _ _ _

/-- A line that another line follows begins no table. -/
theorem table?_lines (target : Target) (text : String) (texts : List String) {rest : List Code}
    (hrest : ∀ items more, rest ≠ .block items :: more) :
    table? target (.line text :: (texts.map .line ++ rest)) = table? target rest := by
  induction texts generalizing text with
  | nil =>
      rw [List.map_nil, List.nil_append, table?, tableAt?]
      · rfl
      · intro _ items more heq
        rw [List.cons.injEq] at heq
        exact hrest items _ heq.2
  | cons next texts ih =>
      rw [List.map_cons, List.cons_append, table?, ih]
      simp [tableAt?]

/-- The table of a plan, as its class declares it. -/
def tableOf : Plan → Option Table
  | .switch _ | .chain _ => none
  | .array plan => some ⟨plan.length, plan.positions.map pointerTo⟩

/-- The statements of the lookup function of a plan. -/
def bodyOf : Plan → List Statement
  | .switch plan => [.switch (plan.cases.toList.map sectionOf ++ [defaultSection])]
  | .chain plan => chainStatements plan.tests.toList
  | .array plan => [.rebase plan.lo.toNat,
      .chain [([.indexNotNegative, .indexBelow plan.length, .cellNotNull], [.cell])],
      .answer .null]

theorem mem_slots_of_mem_positions {plan : TablePlan} {slot : Slot}
    (h : some slot ∈ plan.positions) : slot ∈ plan.slots := by
  obtain ⟨cell, -, hcell⟩ := List.mem_map.1 h
  obtain ⟨i, -, hi⟩ := Option.bind_eq_some_iff.1 hcell
  exact Array.mem_of_getElem? hi

section Units

variable {target : Target} (hnull : Text.isWordTail target.null) {plan : Plan}
  (hnames : ∀ slot ∈ plan.slots, Text.isWord slot.name.text)

include hnull hnames

theorem tableAt?_tableMember {table : TablePlan} (htable : plan = .array table) :
    tableAt? target (Artifact.tableMember target table) =
      some ⟨table.length, table.positions.map pointerTo⟩ := by
  subst htable
  have hlength : (target.handlerType ++ "* table[" ++ toString table.length ++ "] = \x7b").toList =
      (target.handlerType ++ "* table[").toList ++
        (Nat.toDigits 10 table.length ++ "] = \x7b".toList) := by
    simp
  have hcells := mapM_initialiser? hnull fun slot hslot =>
    hnames slot (mem_slots_of_mem_positions hslot)
  simp only [Artifact.tableMember, tableAt?, hlength, between?_append, hcells]
  simp

/-- The table of a class stands behind its slots, which are declared on a line each. -/
theorem table?_members (text : String) :
    table? target (.line text ::
        (plan.slots.toList.map Artifact.memberLine ++ Artifact.extraMembers target plan)) =
      tableOf plan := by
  have hslots : plan.slots.toList.map Artifact.memberLine =
      (plan.slots.toList.map fun slot => slot.typeName ++ " " ++ slot.name.text ++ ";").map
        .line := by
    simp [Artifact.memberLine]
  rw [hslots]
  cases plan with
  | switch plan => exact table?_lines target text _ (by simp [Artifact.extraMembers])
  | chain plan => exact table?_lines target text _ (by simp [Artifact.extraMembers])
  | array table =>
      rw [table?_lines target text _ (by simp [Artifact.extraMembers, Artifact.tableMember])]
      have htable := tableAt?_tableMember hnull hnames rfl
      rw [Artifact.extraMembers]
      rw [Artifact.tableMember] at htable ⊢
      rw [table?, htable]
      rfl

theorem statements?_lookupBody :
    statements? target.null (Artifact.lookupBody target plan) = some (bodyOf plan) := by
  cases plan with
  | switch plan => exact statements?_switchBody hnull (by simpa [Plan.slots] using hnames)
  | chain plan => exact statements?_chainBody hnull (by simpa [Plan.slots] using hnames)
  | array plan => exact statements?_tableBody hnull plan

/-- What is read from the class of a plan: both of its units can be read, and nothing in them but the
body of the lookup function and the table is taken for one. -/
theorem function?_ofPlan (mapping : String) :
    function? target (Artifact.ofPlan target mapping plan) = some ⟨tableOf plan, bodyOf plan⟩ := by
  unfold function?
  simp only [Artifact.ofPlan, blockUnder?_interface, blockUnder?_implementation,
    Option.bind_eq_bind, Option.bind_some, table?_members hnull hnames,
    statements?_lookupBody hnull hnames]
  rfl

end Units

end Switchboard.Generated
