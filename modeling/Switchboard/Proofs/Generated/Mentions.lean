import Switchboard.Proofs.Generated.DumpOrder
import Switchboard.Proofs.Output.Units

/-!
Names in the lines of generated code. A name is mentioned by a line if it stands between the two fixed
parts of a shape, and what shape that is makes all the difference: an address that is returned, one
that is listed, a state that is written, a class that a head belongs to. Lines of one shape are looked
for everywhere in some code, at every level, so that nothing depends on where they are expected.

The vocabulary of the generated language is left open. A line that ends with another character, or
begins with another one, is of another shape whatever its words are.
-/

namespace Switchboard

/-! ### Lines -/

namespace Code

/-- The texts of the lines, in order. -/
def texts (code : List Code) : List String :=
  (linesOf 0 code).map (·.text)

mutual

/-- An item has the same lines at every level. -/
theorem map_text_lines (level other : Nat) : ∀ item : Code,
    (lines level item).map (·.text) = (lines other item).map (·.text)
  | line text => by rw [lines, lines, List.map_singleton, List.map_singleton]
  | block items => by
      rw [lines, lines]
      exact map_text_linesOf (level + 1) (other + 1) items

theorem map_text_linesOf (level other : Nat) : ∀ code : List Code,
    (linesOf level code).map (·.text) = (linesOf other code).map (·.text)
  | [] => by rw [linesOf_nil, linesOf_nil]
  | item :: rest => by
      rw [linesOf_cons, linesOf_cons, List.map_append, List.map_append,
        map_text_lines level other item, map_text_linesOf level other rest]

end

@[simp] theorem texts_nil : texts [] = [] := by
  rw [texts, linesOf_nil, List.map_nil]

@[simp] theorem texts_line (text : String) (rest : List Code) :
    texts (line text :: rest) = text :: texts rest := by
  rw [texts, linesOf_cons, lines, List.map_append, List.map_singleton, List.singleton_append, texts]

@[simp] theorem texts_block (items rest : List Code) :
    texts (block items :: rest) = texts items ++ texts rest := by
  rw [texts, linesOf_cons, lines, List.map_append, map_text_linesOf (0 + 1) 0, texts, texts]

@[simp] theorem texts_append (code more : List Code) :
    texts (code ++ more) = texts code ++ texts more := by
  rw [texts, linesOf_append, List.map_append, texts, texts]

@[simp] theorem texts_map_line (lines : List String) : texts (lines.map line) = lines := by
  rw [texts, linesOf_map_line, List.map_map]
  exact List.map_id lines

end Code

namespace Generated

/-! ### Names in a line -/

/-- The name between two fixed parts of a line. -/
def mention? (opening closing text : String) : Option String :=
  (between? opening closing text.toList).map String.ofList

/-- The names that lines of one shape mention, at whatever level they stand. -/
def mentions (opening closing : String) (code : List Code) : List String :=
  (Code.texts code).filterMap (mention? opening closing)

/-- The names that are mentioned outside all blocks. -/
def headMentions (opening closing : String) (unit : List Code) : List String :=
  (unit.filterMap statement?).filterMap (mention? opening closing)

theorem between?_eq_some_iff {opening closing : String} {text name : List Char} :
    between? opening closing text = some name ↔
      text = opening.toList ++ (name ++ closing.toList) := by
  constructor
  · intro h
    obtain ⟨rest, hrest, hname⟩ := Option.bind_eq_some_iff.1 h
    obtain ⟨front, rfl, hfront⟩ := List.dropPrefix?_eq_some_iff.1 hrest
    obtain ⟨back, rfl, hback⟩ := List.dropSuffix?_eq_some_iff.1 hname
    rw [beq_iff_eq.1 hfront, beq_iff_eq.1 hback]
  · rintro rfl
    exact between?_append opening closing name

theorem mention?_eq_some_iff {opening closing text name : String} :
    mention? opening closing text = some name ↔ text = opening ++ name ++ closing := by
  rw [mention?, Option.map_eq_some_iff, ← String.toList_inj]
  simp only [between?_eq_some_iff, String.toList_append, List.append_assoc]
  constructor
  · rintro ⟨chars, htext, rfl⟩
    rw [htext, String.toList_ofList]
  · intro htext
    exact ⟨name.toList, htext, String.ofList_toList⟩

@[simp] theorem mention?_append (opening name closing : String) :
    mention? opening closing (opening ++ name ++ closing) = some name :=
  mention?_eq_some_iff.2 rfl

/-- A line ends like the last of its parts. -/
theorem getLast?_append {front back : String} {c : Char} (h : back.toList.getLast? = some c) :
    (front ++ back).toList.getLast? = some c := by
  rw [String.toList_append, List.getLast?_append, h, Option.some_or]

/-- A line with another end mentions nothing. -/
theorem mention?_of_getLast?_ne {opening closing text : String} {a : Char} {last : Option Char}
    (hclosing : closing.toList.getLast? = some a) (htext : text.toList.getLast? = last)
    (hne : last ≠ some a) : mention? opening closing text = none := by
  rw [Option.eq_none_iff_forall_ne_some]
  intro name hname
  rw [mention?_eq_some_iff.1 hname, getLast?_append hclosing] at htext
  exact hne htext.symm

/-- A line with another beginning mentions nothing. -/
theorem mention?_of_head?_ne {opening closing text : String} {a b : Char}
    (hopening : opening.toList.head? = some a) (htext : text.toList.head? = some b) (hne : a ≠ b) :
    mention? opening closing text = none := by
  rw [mention?, between?_of_head?_ne hopening htext hne, Option.map_none]

/-- The null pointer is no address, unless it is written like one. -/
theorem mention?_null {null : String} (hnull : null.toList.head? ≠ some '&')
    (front closing : String) : mention? (front ++ "&") closing (front ++ null ++ closing) = none := by
  rw [Option.eq_none_iff_forall_ne_some]
  intro name hname
  have heq := mention?_eq_some_iff.1 hname
  rw [String.append_left_inj, String.append_assoc, String.append_right_inj] at heq
  exact hnull (by simp [heq])

section Mentions

variable {opening closing : String}

@[simp] theorem mentions_nil : mentions opening closing [] = [] := by
  rw [mentions, Code.texts_nil, List.filterMap_nil]

theorem mentions_line_some {text name : String} (h : mention? opening closing text = some name)
    (rest : List Code) : mentions opening closing (.line text :: rest) =
      name :: mentions opening closing rest := by
  rw [mentions, Code.texts_line, List.filterMap_cons_some h, mentions]

theorem mentions_line_none {text : String} (h : mention? opening closing text = none)
    (rest : List Code) :
    mentions opening closing (.line text :: rest) = mentions opening closing rest := by
  rw [mentions, Code.texts_line, List.filterMap_cons_none h, mentions]

theorem mentions_block (items rest : List Code) : mentions opening closing (.block items :: rest) =
    mentions opening closing items ++ mentions opening closing rest := by
  rw [mentions, Code.texts_block, List.filterMap_append, mentions, mentions]

theorem mentions_append (code more : List Code) : mentions opening closing (code ++ more) =
    mentions opening closing code ++ mentions opening closing more := by
  rw [mentions, Code.texts_append, List.filterMap_append, mentions, mentions]

/-- One of the lines outside the blocks mentions a name, and no other does. -/
theorem headMentions_eq_singleton {unit : List Code} (before : List String) {behind : List String}
    {text name : String} (hunit : unit.filterMap statement? = before ++ text :: behind)
    (hname : mention? opening closing text = some name)
    (hother : ∀ other ∈ before ++ behind, mention? opening closing other = none) :
    headMentions opening closing unit = [name] := by
  have hbefore : before.filterMap (mention? opening closing) = [] :=
    List.filterMap_eq_nil_iff.2 fun other h => hother other (List.mem_append_left behind h)
  have hbehind : behind.filterMap (mention? opening closing) = [] :=
    List.filterMap_eq_nil_iff.2 fun other h => hother other (List.mem_append_right before h)
  rw [headMentions, hunit, List.filterMap_append, List.filterMap_cons_some hname, hbefore, hbehind,
    List.nil_append]

end Mentions

/-! ### Names of classes -/

/-- The class that the heads in the units of an artifact name, and the files of the units with them.
What a head has before and behind the name is given by the vocabulary. -/
structure NamesClass (target : Target) (artifact : Artifact) (className : String) : Prop where
  declaration : headMentions "class " (" : public " ++ target.baseClass ++ " \x7b")
    artifact.interface = [className]
  inclusion : headMentions ("#include \"" ++ target.includePrefix ++ "/") ".h\""
    artifact.implementation = [className]
  lookup : headMentions (target.handlerType ++ "* ")
    ("::lookup(" ++ target.identifierType ++ " identifier) \x7b") artifact.implementation = [className]
  state : headMentions "void " ("::" ++ target.stateMethod ++ "(std::ostream &os) const \x7b")
    artifact.implementation = [className]
  interface_stem : ∀ layout : Layout,
    (layout.interfacePath artifact.className).stem? = some className
  implementation_stem : ∀ layout : Layout,
    (layout.implementationPath artifact.className).stem? = some className

section Heads

variable (target : Target) (className : String) (plan : Plan)

theorem headMentions_class : headMentions "class " (" : public " ++ target.baseClass ++ " \x7b")
    (Artifact.interfaceUnit target className plan) = [className] := by
  have hunit : (Artifact.interfaceUnit target className plan).filterMap statement? =
      (["#pragma once", ""] ++ target.includes.map (fun header => "#include \"" ++ header ++ "\"") ++
        [""]) ++ ("class " ++ className ++ (" : public " ++ target.baseClass ++ " \x7b")) ::
          ["public:", "private:", "\x7d;"] := by
    simp [Artifact.interfaceUnit, Artifact.includeLine, statement?, List.filterMap_cons,
      List.filterMap_map, String.append_assoc, Function.comp_def]
  have hclosing : (" : public " ++ target.baseClass ++ " \x7b").toList.getLast? = some '\x7b' :=
    getLast?_append rfl
  refine headMentions_eq_singleton _ hunit (mention?_append _ _ _) fun other hother => ?_
  simp only [List.mem_append, List.mem_cons, List.not_mem_nil, or_false, List.mem_map] at hother
  rcases hother with (((rfl | rfl) | hinclude) | rfl) | rfl | rfl | rfl
  case inl.inl.inr =>
    obtain ⟨header, -, rfl⟩ := hinclude
    exact mention?_of_getLast?_ne hclosing (getLast?_append rfl) (by decide)
  all_goals exact mention?_of_getLast?_ne hclosing rfl (by decide)

theorem filterMap_statement?_implementationUnit :
    (Artifact.implementationUnit target className plan).filterMap statement? =
      ["#include \"" ++ target.includePrefix ++ "/" ++ className ++ ".h\"", "",
        target.handlerType ++ "* " ++ className ++
          ("::lookup(" ++ target.identifierType ++ " identifier) \x7b"), "\x7d", "",
        "void " ++ className ++ ("::" ++ target.stateMethod ++ "(std::ostream &os) const \x7b"),
        "\x7d"] := by
  simp [Artifact.implementationUnit, Artifact.includeLine, statement?, List.filterMap_cons,
    String.append_assoc]

theorem headMentions_include :
    headMentions ("#include \"" ++ target.includePrefix ++ "/") ".h\""
      (Artifact.implementationUnit target className plan) = [className] := by
  have hunit := filterMap_statement?_implementationUnit target className plan
  refine headMentions_eq_singleton [] hunit (mention?_append _ _ _) fun other hother => ?_
  simp only [List.nil_append, List.mem_cons, List.not_mem_nil, or_false] at hother
  -- The heads of the functions end with a brace, and the lines that are left are fixed texts.
  rcases hother with rfl | hlookup | rfl | rfl | hstate | rfl
  case inr.inl =>
    rw [hlookup]
    exact mention?_of_getLast?_ne rfl (getLast?_append (getLast?_append rfl)) (by decide)
  case inr.inr.inr.inr.inl =>
    rw [hstate]
    exact mention?_of_getLast?_ne rfl (getLast?_append (getLast?_append rfl)) (by decide)
  all_goals exact mention?_of_getLast?_ne rfl rfl (by decide)

/-- The heads of the two functions end with a brace, but not with the same character before it. -/
theorem functionHead_ne (front middle front' middle' : String) :
    front ++ (middle ++ " identifier) \x7b") ≠ front' ++ (middle' ++ "(std::ostream &os) const \x7b") := by
  intro heq
  have hback := congrArg (fun text => text.toList.reverse[2]?) heq
  simp at hback

theorem headMentions_lookup : headMentions (target.handlerType ++ "* ")
    ("::lookup(" ++ target.identifierType ++ " identifier) \x7b")
      (Artifact.implementationUnit target className plan) = [className] := by
  have hunit := filterMap_statement?_implementationUnit target className plan
  have hclosing : ("::lookup(" ++ target.identifierType ++ " identifier) \x7b").toList.getLast? =
      some '\x7b' := getLast?_append rfl
  refine headMentions_eq_singleton [_, _] hunit (mention?_append _ _ _) fun other hother => ?_
  simp only [List.mem_append, List.mem_cons, List.not_mem_nil, or_false] at hother
  rcases hother with (hinclude | rfl) | rfl | rfl | hstate | rfl
  case inl.inl =>
    rw [hinclude]
    exact mention?_of_getLast?_ne hclosing (getLast?_append rfl) (by decide)
  case inr.inr.inr.inl =>
    rw [hstate, Option.eq_none_iff_forall_ne_some]
    exact fun name hname => functionHead_ne _ _ _ _ (mention?_eq_some_iff.1 hname).symm
  all_goals exact mention?_of_getLast?_ne hclosing rfl (by decide)

theorem headMentions_state : headMentions "void "
    ("::" ++ target.stateMethod ++ "(std::ostream &os) const \x7b")
      (Artifact.implementationUnit target className plan) = [className] := by
  have hunit := filterMap_statement?_implementationUnit target className plan
  have hclosing : ("::" ++ target.stateMethod ++ "(std::ostream &os) const \x7b").toList.getLast? =
      some '\x7b' := getLast?_append rfl
  refine headMentions_eq_singleton [_, _, _, _, _] hunit (mention?_append _ _ _) fun other hother => ?_
  simp only [List.mem_append, List.mem_cons, List.not_mem_nil, or_false] at hother
  rcases hother with (hinclude | rfl | hlookup | rfl | rfl) | rfl
  case inl.inl =>
    rw [hinclude]
    exact mention?_of_getLast?_ne hclosing (getLast?_append rfl) (by decide)
  case inl.inr.inr.inl =>
    rw [hlookup, Option.eq_none_iff_forall_ne_some]
    exact fun name hname => functionHead_ne _ _ _ _ (mention?_eq_some_iff.1 hname)
  all_goals exact mention?_of_getLast?_ne hclosing rfl (by decide)

end Heads

theorem namesClass_of_emit {mapping : Mapping} {strategy : Strategy} {config : Config}
    {artifact : Artifact} (hemit : Artifact.emit mapping strategy config = .ok artifact) :
    NamesClass config.target artifact (strategy.className mapping.name) := by
  obtain ⟨plan, rfl, hclass⟩ := Output.emit_eq_ok hemit
  have hclass' : plan.strategy.className mapping.name = strategy.className mapping.name := hclass
  have hstem (tree : Output.UnitTree) (layout : Layout) := tree.stem?_join layout strategy mapping
  constructor
  case interface_stem =>
    intro layout
    rw [hclass]
    exact hstem .interfaces layout
  case implementation_stem =>
    intro layout
    rw [hclass]
    exact hstem .implementations layout
  all_goals rw [← hclass']
  · exact headMentions_class config.target _ plan
  · exact headMentions_include config.target _ plan
  · exact headMentions_lookup config.target _ plan
  · exact headMentions_state config.target _ plan

end Generated

end Switchboard
