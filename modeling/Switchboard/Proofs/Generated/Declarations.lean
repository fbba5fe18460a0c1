import Switchboard.Proofs.Generated.Reading
import Switchboard.Proofs.Output.Units
import Switchboard.Proofs.Text.Pieces

/-!
Reading the declarations of a generated class back. A declaration is a type and a name behind it, up to
a mark that tells what is declared: a method is declared up to its parameters, a table up to its length,
and a slot up to the end of the line.

Only what stands in the braces of the class, one level below the labels, is taken for a member. What a
function body binds are the parameter in the head of the function and the variables that are declared
with a value in the lines of its body. Nothing here knows which lines an artifact is made of, so a line
that declares something is found wherever it stands.
-/

namespace Switchboard

namespace Generated

/-! ### Declarations -/

/-- A type, a name, and the mark behind the name. -/
structure Declaration where
  type : String
  name : String
  mark : Char
deriving DecidableEq, Repr

/-- What two fields declare in front of a mark. The name of a reference has a `&` before it. -/
def declarator? (mark : Char) : List (List Char) → Option Declaration
  | [type, declarator] =>
    let name := String.ofList (declarator.dropWhile (· == '&'))
    if Text.isWord name then some ⟨String.ofList type, name, mark⟩ else none
  | _ => none

/-- The declaration that a text begins with, up to the first of some marks. -/
def declaration? (marks text : List Char) : Option Declaration :=
  (text.dropWhile (· ∉ marks)).head?.bind fun mark =>
    declarator? mark (Text.fields (text.takeWhile (· ∉ marks)))

/-- The member that a line of a class declares. -/
def member? : Code → Option Declaration
  | .line text => declaration? ['(', '[', ';'] text.toList
  | .block _ => none

/-- The members that stand one level below the labels of a class. -/
def sectionMembers : Code → List Declaration
  | .line _ => []
  | .block items => items.filterMap member?

def isClassEnd : Code → Bool
  | .line text => text == "\x7d;"
  | .block _ => false

/-- What stands in the braces of the first class of a unit. -/
def classBody? : List Code → Option (List Code)
  | [] => none
  | .block _ :: rest => classBody? rest
  | .line text :: rest =>
    if "class ".toList.isPrefixOf text.toList then some (rest.takeWhile (!isClassEnd ·))
    else classBody? rest

/-- The members that a class declares, in order. -/
def members? (interface : List Code) : Option (List Declaration) :=
  (classBody? interface).map (·.flatMap sectionMembers)

/-- The parameter in the first parentheses of a text. -/
def parameter? (text : List Char) : Option Declaration :=
  declaration? [')'] (text.dropWhile (· != '(')).tail

/-- The variable that a line of an implementation unit binds. The heads of functions stand on the
lowest level, and their bodies do not. -/
def binding? (line : Code.Line) : Option Declaration :=
  if line.level = 0 then parameter? line.text.toList else declaration? ['='] line.text.toList

/-- The variables that the function bodies of a unit bind, in order. -/
def bindings (implementation : List Code) : List Declaration :=
  (Code.linesOf 0 implementation).filterMap binding?

/-! ### Reading declarations -/

variable {marks : List Char}

/-- What stands behind the first mark makes no difference. -/
theorem declaration?_append {head : List Char} {mark : Char} (hhead : head.all (· ∉ marks))
    (hmark : mark ∈ marks) (rest : List Char) :
    declaration? marks (head ++ mark :: rest) = declarator? mark (Text.fields head) := by
  have hhead' := List.all_eq_true.1 hhead
  have htake : (head ++ mark :: rest).takeWhile (· ∉ marks) = head := by
    rw [List.takeWhile_append_of_pos hhead', List.takeWhile_cons_of_neg (by simpa using hmark),
      List.append_nil]
  have hdrop : (head ++ mark :: rest).dropWhile (· ∉ marks) = mark :: rest := by
    rw [List.dropWhile_append_of_pos hhead', List.dropWhile_cons_of_neg (by simpa using hmark)]
  rw [declaration?, htake, hdrop, List.head?_cons, Option.bind_some]

/-- Where there is no mark, nothing is declared. -/
theorem declaration?_of_not_mem {text : List Char} (h : ∀ c ∈ text, c ∉ marks) :
    declaration? marks text = none := by
  have hdrop : text.dropWhile (· ∉ marks) = [] := by simpa using h
  rw [declaration?, hdrop]
  rfl

/-- Marks that continue no word stand in none. -/
theorem all_not_mark (hmarks : marks.all (!Text.isWordChar ·)) {word : String}
    (h : Text.isWord word) : word.toList.all (· ∉ marks) := by
  rw [List.all_eq_true]
  intro c hc
  rw [decide_eq_true_eq]
  intro hmem
  have hmark := List.all_eq_true.1 hmarks c hmem
  rw [Bool.not_eq_true'] at hmark
  exact not_mem_of_isWordTail (Text.isWordTail_of_isWord h) hmark hc

theorem fields_words {type name : String} (htype : Text.isWord type) (hname : Text.isWord name) :
    Text.fields (type.toList ++ ' ' :: name.toList) = [type.toList, name.toList] := by
  have hword {word : String} (h : Text.isWord word) (rest : List Char)
      (hrest : ∀ c ∈ rest.head?, Text.isBlank c) :
      Text.fields (word.toList ++ rest) = word.toList :: Text.fields rest := by
    obtain ⟨hne, hall⟩ := Text.isWordTail_eq_true_iff.1 (Text.isWordTail_of_isWord h)
    exact Text.fields_append_of_not_isBlank hne
      (fun c hc => Text.isBlank_of_isWordChar (hall c hc)) hrest
  have hblank : Text.isBlank ' ' := by decide
  have hlast := hword hname [] nofun
  rw [List.append_nil, Text.fields_nil] at hlast
  rw [hword htype _ (by simpa using hblank), Text.fields_cons_of_isBlank hblank, hlast]

theorem declarator?_words (type : String) {name : String} (hname : Text.isWord name) (mark : Char) :
    declarator? mark [type.toList, name.toList] = some ⟨type, name, mark⟩ := by
  have hmem := not_mem_of_isWordTail (c := '&') (Text.isWordTail_of_isWord hname) (by decide)
  have hdrop : name.toList.dropWhile (· == '&') = name.toList := by
    cases hchars : name.toList with
    | nil => rfl
    | cons c rest =>
        rw [hchars, List.mem_cons, not_or] at hmem
        exact List.dropWhile_cons_of_neg (by simpa using Ne.symm hmem.1)
  simp only [declarator?, hdrop, String.ofList_toList, if_pos hname]

/-! ### Members -/

def slotMember (slot : Slot) : Declaration :=
  ⟨slot.typeName, slot.name.text, ';'⟩

/-- The line of a slot declares it. -/
theorem member?_memberLine {slot : Slot} (htype : Text.isWord slot.typeName)
    (hname : Text.isWord slot.name.text) :
    member? (Artifact.memberLine slot) = some (slotMember slot) := by
  have hhead : (slot.typeName.toList ++ ' ' :: slot.name.text.toList).all (· ∉ ['(', '[', ';']) := by
    rw [List.all_append, List.all_cons, all_not_mark (by decide) htype,
      all_not_mark (by decide) hname]
    decide
  have hline : (slot.typeName ++ " " ++ slot.name.text ++ ";").toList =
      (slot.typeName.toList ++ ' ' :: slot.name.text.toList) ++ ';' :: [] := by
    simp
  have hmark : ';' ∈ ['(', '[', ';'] := by decide
  rw [Artifact.memberLine, member?, hline, declaration?_append hhead hmark,
    fields_words htype hname, declarator?_words slot.typeName hname, slotMember]

/-- The members that follow the slots. -/
def tableMembers : Plan → List Declaration
  | .switch _ | .chain _ => []
  | .array _ => [⟨"IAnalyzer*", "table", '['⟩]

/-- The members of a class: its two functions, its slots and, for a table, the table. -/
def planMembers (plan : Plan) : List Declaration :=
  [⟨"IAnalyzer*", "lookup", '('⟩, ⟨"void", "stringifyAnalyzersState", '('⟩] ++
    plan.slots.toList.map slotMember ++ tableMembers plan

theorem filterMap_extraMembers (plan : Plan) :
    (Artifact.extraMembers Target.standard plan).filterMap member? = tableMembers plan := by
  cases plan with
  | switch _ => rfl
  | chain _ => rfl
  | array table =>
      have hline : (Target.standard.handlerType ++ "* table[" ++ toString table.length ++
          "] = \x7b").toList = "IAnalyzer* table".toList ++
            '[' :: (toString table.length ++ "] = \x7b").toList := by
        simp [Target.standard]
      have hopen : member? (.line (Target.standard.handlerType ++ "* table[" ++
          toString table.length ++ "] = \x7b")) = some ⟨"IAnalyzer*", "table", '['⟩ := by
        have hhead : "IAnalyzer* table".toList.all (· ∉ ['(', '[', ';']) := by decide
        rw [member?, hline, declaration?_append hhead (by decide)]
        decide
      have hclose : member? (.line "\x7d;") = none := by decide
      rw [Artifact.extraMembers, Artifact.tableMember, List.filterMap_cons_some hopen,
        List.filterMap_cons_none rfl, List.filterMap_cons_none hclose, List.filterMap_nil]
      rfl

theorem classBody?_line {text : String} (h : "class ".toList.isPrefixOf text.toList = false)
    (rest : List Code) : classBody? (.line text :: rest) = classBody? rest := by
  rw [classBody?, h]
  rfl

theorem classBody?_interfaceUnit (className : String) (plan : Plan) :
    classBody? (Artifact.interfaceUnit Target.standard className plan) =
      some [.line "public:",
        .block [.line "IAnalyzer* lookup(identifier_t identifier) override;"],
        .line "private:",
        .block (.line "void stringifyAnalyzersState(std::ostream &os) const override;" ::
          (plan.slots.toList.map Artifact.memberLine ++
            Artifact.extraMembers Target.standard plan))] := by
  have hclass : "class ".toList.isPrefixOf
      ("class " ++ className ++ " : public " ++ Target.standard.baseClass ++ " \x7b").toList := by
    simp
  have hincludes : Target.standard.includes.map Artifact.includeLine =
      [.line "#include \"analyzers/All.h\"",
        .line "#include \"dispatchers/metaprogramming/IMeta.h\""] := rfl
  simp only [Artifact.interfaceUnit, hincludes, List.cons_append, List.nil_append]
  -- Five lines stand in front of the class.
  rw [classBody?_line rfl, classBody?_line rfl, classBody?_line rfl, classBody?_line rfl,
    classBody?_line rfl, classBody?, if_pos hclass]
  rfl

theorem members?_interfaceUnit {plan : Plan} (className : String)
    (htypes : ∀ slot ∈ plan.slots, Text.isWord slot.typeName)
    (hnames : ∀ slot ∈ plan.slots, Text.isWord slot.name.text) :
    members? (Artifact.interfaceUnit Target.standard className plan) =
      some (planMembers plan) := by
  have hslots : (plan.slots.toList.map Artifact.memberLine).filterMap member? =
      plan.slots.toList.map slotMember := by
    rw [List.filterMap_map, List.filterMap_eq_map_iff_forall_eq_some]
    intro slot hslot
    have hmem := Array.mem_def.2 hslot
    exact member?_memberLine (htypes slot hmem) (hnames slot hmem)
  have hlookup : member? (.line "IAnalyzer* lookup(identifier_t identifier) override;") =
      some ⟨"IAnalyzer*", "lookup", '('⟩ := by decide
  have hstate : member? (.line "void stringifyAnalyzersState(std::ostream &os) const override;") =
      some ⟨"void", "stringifyAnalyzersState", '('⟩ := by decide
  rw [members?, classBody?_interfaceUnit, Option.map_some]
  simp only [List.flatMap_cons, List.flatMap_nil, sectionMembers, List.filterMap_cons_some hlookup,
    List.filterMap_cons_some hstate, List.filterMap_append, hslots, filterMap_extraMembers]
  simp [planMembers]

/-! ### Variables -/

theorem parameter?_append {before : List Char} (h : '(' ∉ before) (rest : List Char) :
    parameter? (before ++ '(' :: rest) = declaration? [')'] rest := by
  have hbefore : ∀ c ∈ before, (c != '(') = true := by
    intro c hc
    simpa using ne_of_mem_of_not_mem hc h
  rw [parameter?, List.dropWhile_append_of_pos hbefore, List.dropWhile_cons_of_neg (by simp),
    List.tail_cons]

theorem parameter?_of_not_mem {text : List Char} (h : '(' ∉ text) : parameter? text = none := by
  have hdrop : text.dropWhile (· != '(') = [] := by
    rw [List.dropWhile_eq_nil_iff]
    intro c hc
    simpa using ne_of_mem_of_not_mem hc h
  rw [parameter?, hdrop]
  rfl

/-- Code that binds nothing where it stands in a function body. -/
def BindsNothing (code : List Code) : Prop :=
  ∀ level, (Code.linesOf (level + 1) code).filterMap binding? = []

namespace BindsNothing

variable {code more : List Code}

theorem nil : BindsNothing [] := by
  intro level
  simp

theorem line {text : String} (htext : declaration? ['='] text.toList = none)
    (h : BindsNothing code) : BindsNothing (.line text :: code) := by
  intro level
  have hline : binding? ⟨level + 1, text⟩ = none := by simpa [binding?] using htext
  rw [Code.linesOf_cons, Code.lines, List.filterMap_append, h, List.append_nil,
    List.filterMap_cons_none hline, List.filterMap_nil]

theorem block {items : List Code} (hitems : BindsNothing items) (h : BindsNothing code) :
    BindsNothing (.block items :: code) := by
  intro level
  rw [Code.linesOf_cons, Code.lines, List.filterMap_append, hitems, h, List.append_nil]

theorem append (h : BindsNothing code) (hmore : BindsNothing more) : BindsNothing (code ++ more) := by
  intro level
  rw [Code.linesOf_append, List.filterMap_append, h, hmore, List.append_nil]

end BindsNothing

theorem declaration?_of_equals_not_mem {text : List Char} (h : '=' ∉ text) :
    declaration? ['='] text = none := by
  refine declaration?_of_not_mem fun c hc hmark => h ?_
  rwa [List.mem_singleton.1 hmark] at hc

theorem equals_not_mem_of_isWord {name : String} (h : Text.isWord name) : '=' ∉ name.toList :=
  not_mem_of_isWordTail (Text.isWordTail_of_isWord h) (by decide)

theorem bindsNothing_returnSlot {slot : Slot} (h : Text.isWord slot.name.text) :
    BindsNothing [Artifact.returnSlot slot] := by
  refine .line (declaration?_of_equals_not_mem ?_) .nil
  simp [equals_not_mem_of_isWord h]

theorem bindsNothing_returnNull : BindsNothing [Artifact.returnNull Target.standard] :=
  .line (by decide) .nil

theorem bindsNothing_switchBody {plan : SwitchPlan}
    (h : ∀ slot ∈ plan.cases.toList, Text.isWord slot.name.text) :
    BindsNothing (Artifact.switchBody Target.standard plan) := by
  have hcases {slots : List Slot} (h : ∀ slot ∈ slots, Text.isWord slot.name.text) :
      BindsNothing (slots.flatMap Artifact.switchCase) := by
    induction slots with
    | nil => exact .nil
    | cons slot rest ih =>
        rw [List.forall_mem_cons] at h
        refine .line (declaration?_of_equals_not_mem ?_) (.block (bindsNothing_returnSlot h.1) (ih h.2))
        simp [not_mem_literal slot.identifier (c := '=') (by decide)]
  have hdefault : BindsNothing [.line "default:", .block [Artifact.returnNull Target.standard]] :=
    .line (by decide) (.block bindsNothing_returnNull .nil)
  exact .line (by decide) (.block ((hcases h).append hdefault) (.line (by decide) .nil))

/-- A comparison in a condition is no declaration. -/
theorem declaration?_chainTest {leading : String} (hleading : leading = "" ∨ leading = "\x7d else ")
    (slot : Slot) : declaration? ['='] (leading ++ Artifact.chainTest slot).toList = none := by
  have hline : (leading ++ Artifact.chainTest slot).toList =
      (leading.toList ++ "if (identifier ".toList) ++
        '=' :: ("= ".toList ++ (slot.identifier.literal.toList ++ ") \x7b".toList)) := by
    rw [String.toList_append, toList_chainTest]
    simp
  rcases hleading with rfl | rfl
  · have hhead : ("".toList ++ "if (identifier ".toList).all (· ∉ ['=']) := by decide
    rw [hline, declaration?_append hhead (by decide)]
    decide
  · have hhead : ("\x7d else ".toList ++ "if (identifier ".toList).all (· ∉ ['=']) := by decide
    rw [hline, declaration?_append hhead (by decide)]
    decide

theorem bindsNothing_chainBody {plan : ChainPlan}
    (h : ∀ slot ∈ plan.tests.toList, Text.isWord slot.name.text) :
    BindsNothing (Artifact.chainBody Target.standard plan) := by
  have hrest {slots : List Slot} (h : ∀ slot ∈ slots, Text.isWord slot.name.text) :
      BindsNothing (Artifact.chainRest slots) := by
    induction slots with
    | nil => exact .line (by decide) .nil
    | cons slot rest ih =>
        rw [List.forall_mem_cons] at h
        exact .line (declaration?_chainTest (.inr rfl) slot)
          (.block (bindsNothing_returnSlot h.1) (ih h.2))
  unfold Artifact.chainBody
  split
  · exact bindsNothing_returnNull
  · next slot rest hcons =>
    rw [hcons, List.forall_mem_cons] at h
    have htest := declaration?_chainTest (.inl rfl) slot
    rw [String.empty_append] at htest
    refine .line htest (.block (bindsNothing_returnSlot h.1) ?_)
    exact (hrest h.2).append bindsNothing_returnNull

/-- The variables that the lookup function of a plan binds besides its parameter. -/
def localVariables : Plan → List Declaration
  | .switch _ | .chain _ => []
  | .array _ => [⟨"int64_t", "index", '='⟩]

theorem binding?_rebase (identifier : Identifier) :
    binding? ⟨1, "int64_t index = static_cast<int64_t>(identifier) - " ++ identifier.literal ++ ";"⟩ =
      some ⟨"int64_t", "index", '='⟩ := by
  have hhead : "int64_t index ".toList.all (· ∉ ['=']) := by decide
  have hline : ("int64_t index = static_cast<int64_t>(identifier) - " ++ identifier.literal ++
      ";").toList = "int64_t index ".toList ++ '=' ::
        (" static_cast<int64_t>(identifier) - ".toList ++ (identifier.literal ++ ";").toList) := by
    simp
  rw [binding?, if_neg Nat.one_ne_zero, hline, declaration?_append hhead (by decide)]
  decide

/-- The guard of a table is no declaration: three fields stand before its first `=`. -/
theorem declaration?_guard (length : Nat) :
    declaration? ['='] ("if (index >= 0 && index < " ++ toString length ++ " && table[index] != " ++
      Target.standard.null ++ ") \x7b").toList = none := by
  have hhead : "if (index >".toList.all (· ∉ ['=']) := by decide
  have hline : ("if (index >= 0 && index < " ++ toString length ++ " && table[index] != " ++
      Target.standard.null ++ ") \x7b").toList =
        "if (index >".toList ++ '=' :: (" 0 && index < ".toList ++ (toString length ++
          (" && table[index] != " ++ Target.standard.null ++ ") \x7b")).toList) := by
    simp
  rw [hline, declaration?_append hhead (by decide)]
  decide

theorem filterMap_lookupBody {plan : Plan} (h : ∀ slot ∈ plan.slots, Text.isWord slot.name.text) :
    (Code.linesOf 1 (Artifact.lookupBody Target.standard plan)).filterMap binding? =
      localVariables plan := by
  -- The index is bound on the first line of a table's body, and nothing is on the others.
  cases plan with
  | switch plan => exact bindsNothing_switchBody (by simpa [Plan.slots] using h) 0
  | chain plan => exact bindsNothing_chainBody (by simpa [Plan.slots] using h) 0
  | array table =>
      have hrest : BindsNothing [.line ("if (index >= 0 && index < " ++ toString table.length ++
          " && table[index] != " ++ Target.standard.null ++ ") \x7b"),
          .block [.line "return table[index];"], .line "\x7d",
          Artifact.returnNull Target.standard] :=
        .line (declaration?_guard table.length)
          (.block (.line (by decide) .nil) (.line (by decide) bindsNothing_returnNull))
      rw [Artifact.lookupBody, Artifact.tableBody, Code.linesOf_cons, Code.lines,
        List.filterMap_append, hrest, List.append_nil,
        List.filterMap_cons_some (binding?_rebase table.lo)]
      rfl

theorem bindsNothing_stateLines {slots : List Slot}
    (h : ∀ slot ∈ slots, Text.isWord slot.name.text) :
    BindsNothing (slots.map Artifact.stateLine) := by
  induction slots with
  | nil => exact .nil
  | cons slot rest ih =>
      rw [List.forall_mem_cons] at h
      refine .line (declaration?_of_equals_not_mem ?_) (ih h.2)
      simp [equals_not_mem_of_isWord h.1]

/-- The function bodies of a class bind their parameters and, for a table, the index. -/
theorem bindings_implementationUnit {className : String} {plan : Plan}
    (hclass : '(' ∉ className.toList) (hnames : ∀ slot ∈ plan.slots, Text.isWord slot.name.text) :
    bindings (Artifact.implementationUnit Target.standard className plan) =
      ⟨"identifier_t", "identifier", ')'⟩ :: (localVariables plan ++
        [⟨"std::ostream", "os", ')'⟩]) := by
  have hinclude : binding? ⟨0, "#include \"" ++ (Target.standard.includePrefix ++ "/" ++ className ++
      ".h") ++ "\""⟩ = none := by
    refine parameter?_of_not_mem ?_
    simp [hclass, Target.standard]
  have hlookup : binding? ⟨0, Target.standard.handlerType ++ "* " ++ className ++ "::lookup(" ++
      Target.standard.identifierType ++ " identifier) \x7b"⟩ =
        some ⟨"identifier_t", "identifier", ')'⟩ := by
    have hline : (Target.standard.handlerType ++ "* " ++ className ++ "::lookup(" ++
        Target.standard.identifierType ++ " identifier) \x7b").toList =
          ("IAnalyzer* ".toList ++ className.toList ++ "::lookup".toList) ++
            '(' :: "identifier_t identifier) \x7b".toList := by
      simp [Target.standard]
    rw [binding?, if_pos rfl, hline, parameter?_append (by simp [hclass])]
    decide
  have hstate : binding? ⟨0, "void " ++ className ++ "::" ++ Target.standard.stateMethod ++
      "(std::ostream &os) const \x7b"⟩ = some ⟨"std::ostream", "os", ')'⟩ := by
    have hline : ("void " ++ className ++ "::" ++ Target.standard.stateMethod ++
        "(std::ostream &os) const \x7b").toList =
          ("void ".toList ++ className.toList ++ "::stringifyAnalyzersState".toList) ++
            '(' :: "std::ostream &os) const \x7b".toList := by
      simp [Target.standard]
    rw [binding?, if_pos rfl, hline, parameter?_append (by simp [hclass])]
    decide
  have hempty : binding? ⟨0, ""⟩ = none := by decide
  have hclose : binding? ⟨0, "\x7d"⟩ = none := by decide
  have hstates : (Code.linesOf 1 (plan.slots.toList.map Artifact.stateLine)).filterMap binding? = [] :=
    bindsNothing_stateLines (by simpa using hnames) 0
  simp only [bindings, Artifact.implementationUnit, Artifact.includeLine, Code.linesOf_cons,
    Code.linesOf_nil, Code.lines, List.filterMap_append, List.filterMap_nil,
    List.filterMap_cons_none hinclude, List.filterMap_cons_none hempty,
    List.filterMap_cons_none hclose, List.filterMap_cons_some hlookup,
    List.filterMap_cons_some hstate, filterMap_lookupBody hnames, hstates]
  simp

end Generated

end Switchboard
