import Switchboard.Proofs.Generation.ClassNames
import Switchboard.Proofs.Mapping.Phases

/-!
Which files are taken for generated units. Names are made in one place, where a class name is put
together and given an extension, and judged in another, where an extension, a stem and a label are
taken off again. The two agree: what is judged to be generated is exactly what the name of some class
could be, and the strategy and the rest of the name are no matter of choice, because the labels begin
with different letters.

A file name is cut at its last dot, and neither a class name nor an extension has one of its own.
-/

namespace Switchboard

/-! ### File names and extensions -/

namespace Path

/-- A file name has an extension if it has a dot behind its first character. The extension is what
follows the last dot. -/
theorem splitExtension_eq_some_iff {name stem extension : String} :
    splitExtension name = (stem, some extension) ↔
      name = stem ++ "." ++ extension ∧ stem ≠ "" ∧ '.' ∉ extension.toList := by
  constructor
  · intro h
    by_cases hdot : '.' ∈ name.toList.reverse
    · obtain ⟨last, front, hreverse, hlast⟩ := List.eq_append_cons_of_mem hdot
      have hlast' : '.' ∉ (String.ofList last.reverse).toList := by simpa using hlast
      have hname : name = String.ofList front.reverse ++ "." ++ String.ofList last.reverse := by
        rw [← String.toList_inj]
        simpa using congrArg List.reverse hreverse
      cases front with
      | nil =>
          have htake : (last ++ ['.']).takeWhile (· != '.') = last :=
            takeWhile_ne_dot hlast []
          unfold splitExtension at h
          simp [hreverse, htake] at h
      | cons c chars =>
          have hstem : String.ofList (c :: chars).reverse ≠ "" := by simp
          rw [hname, splitExtension_append hstem hlast'] at h
          cases h
          exact ⟨hname, hstem, hlast'⟩
    · have htake : name.toList.reverse.takeWhile (· != '.') = name.toList.reverse := by
        rw [List.takeWhile_eq_self_iff]
        simpa using fun c hc => ne_of_mem_of_not_mem hc (by simpa using hdot)
      have hdrop : name.toList.reverse.drop name.toList.reverse.length = [] := List.drop_length
      unfold splitExtension at h
      simp only [htake, hdrop] at h
      cases h
  · rintro ⟨rfl, hstem, hextension⟩
    exact splitExtension_append hstem hextension

end Path

/-! ### Class names -/

theorem Strategy.isWord_className (strategy : Strategy) {name : String} (h : Text.isWordTail name) :
    Text.isWord (strategy.className name) := by
  obtain ⟨rest, hrest⟩ := List.head?_eq_some_iff.1 (strategy.head?_className name)
  have hall := strategy.isWordChar_of_mem_className h
  rw [hrest, List.forall_mem_cons] at hall
  have htail := List.all_eq_true.2 hall.2
  simp [Text.isWord, hrest, htail]

namespace Output

theorem afterStem?_eq_some_iff {stem text tail : String} :
    afterStem? stem text = some tail ↔ text = stem ++ tail := by
  constructor
  · intro h
    unfold afterStem? at h
    split at h
    · next hprefix =>
      obtain ⟨rest, hrest⟩ := List.isPrefixOf_iff_prefix.1 hprefix
      cases h
      rw [← String.toList_inj, String.toList_append, String.toList_ofList, ← hrest,
        List.drop_left]
    · cases h
  · rintro rfl
    exact afterStem?_append stem tail

/-- What is taken for a class name is what one could be. -/
theorem isClassName_iff {stem : String} : isClassName stem = true ↔
    ∃ (strategy : Strategy) (tail : String),
      stem = Strategy.classStem ++ strategy.label ++ tail ∧ Text.isWordTail tail := by
  constructor
  · intro h
    unfold isClassName at h
    split at h
    · cases h
    · next rest hrest =>
      obtain ⟨strategy, -, hstrategy⟩ := List.any_eq_true.1 h
      split at hstrategy
      · cases hstrategy
      · next tail htail =>
        refine ⟨strategy, tail, ?_, hstrategy⟩
        rw [afterStem?_eq_some_iff.1 hrest, afterStem?_eq_some_iff.1 htail, String.append_assoc]
  · rintro ⟨strategy, tail, rfl, htail⟩
    unfold isClassName
    rw [String.append_assoc, afterStem?_append]
    refine List.any_eq_true.2 ⟨strategy, strategy.mem_all, ?_⟩
    rw [afterStem?_append]
    exact htail

/-! ### Unit files -/

/-- A file name that is made like the name of a unit: the stem of class names, the label of a
strategy, the rest of a word, and an extension behind a dot. -/
structure NamesUnit (file : String) (strategy : Strategy) (tail extension : String) : Prop where
  file_eq : file = "Generated" ++ strategy.label ++ tail ++ "." ++ extension
  tail_matches : Text.MatchesWordTail tail.toList

/-- A file name is made in at most one way. -/
theorem NamesUnit.unique {file tail tail' extension : String} {strategy other : Strategy}
    (h : NamesUnit file strategy tail extension) (h' : NamesUnit file other tail' extension) :
    strategy = other ∧ tail = tail' := by
  have heq := h.file_eq.symm.trans h'.file_eq
  rw [String.append_left_inj, String.append_left_inj, String.append_assoc, String.append_assoc,
    String.append_right_inj] at heq
  exact Strategy.label_append_inj.1 heq

/-- A file name is cut into an extension and a class name if it is made like the name of a unit. -/
theorem splitExtension_isClassName_iff {file extension : String} :
    (Path.splitExtension file).2 = some extension ∧ isClassName (Path.splitExtension file).1 = true ↔
      '.' ∉ extension.toList ∧ ∃ strategy tail, NamesUnit file strategy tail extension := by
  constructor
  · rintro ⟨hextension, hclass⟩
    obtain ⟨strategy, tail, hstem, htail⟩ := isClassName_iff.1 hclass
    obtain ⟨hfile, -, hdot⟩ := Path.splitExtension_eq_some_iff.1 (Prod.ext hstem hextension)
    exact ⟨hdot, strategy, tail, hfile, Text.isWordTail_iff_matchesWordTail.1 htail⟩
  · rintro ⟨hdot, strategy, tail, rfl, htail⟩
    have hstem : Strategy.classStem ++ strategy.label ++ tail ≠ "" := by simp [Strategy.classStem]
    have hsplit : Path.splitExtension ("Generated" ++ strategy.label ++ tail ++ "." ++ extension) =
        (Strategy.classStem ++ strategy.label ++ tail, some extension) :=
      Path.splitExtension_append hstem hdot
    rw [hsplit]
    exact ⟨rfl, isClassName_iff.2
      ⟨strategy, tail, rfl, Text.isWordTail_iff_matchesWordTail.2 htail⟩⟩

theorem isGenerated_of_fileName? {path : Path} {file : String} (h : path.fileName? = some file)
    (extension : String) : isGenerated path extension = true ↔
      (Path.splitExtension file).2 = some extension ∧
        isClassName (Path.splitExtension file).1 = true := by
  simp [isGenerated, Path.extension?, Path.stem?, h]

/-- What is taken for a generated unit is what is named like one, and its extension has no dot. -/
theorem isGenerated_iff {path : Path} {extension : String} : isGenerated path extension = true ↔
    '.' ∉ extension.toList ∧ ∃ file, path.fileName? = some file ∧
      ∃ strategy tail, NamesUnit file strategy tail extension := by
  cases hfile : path.fileName? with
  | none => simp [isGenerated, Path.extension?, hfile]
  | some file =>
      rw [isGenerated_of_fileName? hfile, splitExtension_isClassName_iff]
      simp

/-- The unit of a class is taken for a generated unit with the extension of its tree and with no
other. -/
theorem isGenerated_path_iff (tree : UnitTree) (layout : Layout) (strategy : Strategy) {name : String}
    (h : Text.isWordTail name) (extension : String) :
    isGenerated ((tree.directory layout).join (tree.fileName (strategy.className name))) extension =
        true ↔ extension = tree.extension := by
  have hname := (isUnitName_className strategy h tree.slash_not_mem_extension).isName
  rw [← tree.fileName_eq] at hname
  rw [isGenerated_of_fileName? (Path.fileName?_join _ hname), tree.splitExtension_fileName,
    isClassName_className strategy h, Option.some.injEq]
  simp [eq_comm]

/-- Class names and what is taken for a generated unit fit together. A class name is a word without
dots and separators, and it tells the strategy and the mapping but for the case of one letter. A path
is taken for a unit with an extension exactly if its file name is made like the name of a unit, which
is possible in one way only. So in whatever directories units are put, those of a class are taken for
generated units with the extension of their own tree and not with that of the other. -/
theorem class_names_recognised {name name' : String} (hname : Text.MatchesWordTail name.toList)
    (hname' : Text.MatchesWordTail name'.toList) (strategy strategy' : Strategy) :
    Text.MatchesWord (strategy.className name).toList ∧
      (∀ c ∈ ['/', '\\', '.'], c ∉ (strategy.className name).toList) ∧
      (strategy.className name = strategy'.className name' ↔
        strategy = strategy' ∧ Text.EqualButFirstCase name name') ∧
      (∀ path extension, '.' ∉ extension.toList →
        (isGenerated path extension = true ↔ ∃ file, path.fileName? = some file ∧
          ∃ strategy tail, NamesUnit file strategy tail extension)) ∧
      (∀ file extension strategy tail strategy' tail', NamesUnit file strategy tail extension →
        NamesUnit file strategy' tail' extension → strategy = strategy' ∧ tail = tail') ∧
      ∀ layout : Layout,
        isGenerated (layout.interfacePath (strategy.className name)) "h" = true ∧
        isGenerated (layout.interfacePath (strategy.className name)) "cpp" = false ∧
        isGenerated (layout.implementationPath (strategy.className name)) "cpp" = true ∧
        isGenerated (layout.implementationPath (strategy.className name)) "h" = false := by
  have hword := Text.isWordTail_iff_matchesWordTail.2 hname
  have hword' := Text.isWordTail_iff_matchesWordTail.2 hname'
  have hmark : ['/', '\\', '.'].all (!Text.isWordChar ·) := by decide
  refine ⟨Text.isWord_iff_matchesWord.1 (strategy.isWord_className hword), ?_, ?_, ?_, ?_, ?_⟩
  · intro c hc hmem
    have hchar := strategy.isWordChar_of_mem_className hword c hmem
    simpa [hchar] using List.all_eq_true.1 hmark c hc
  · rw [Strategy.className_eq_iff, Text.capitalize_eq_iff hword hword']
  · intro path extension hdot
    rw [isGenerated_iff]
    simp [hdot]
  · exact fun _ _ _ _ _ _ h h' => h.unique h'
  · intro layout
    have hpath := fun tree => isGenerated_path_iff tree layout strategy hword
    refine ⟨(hpath .interfaces "h").2 rfl, ?_, (hpath .implementations "cpp").2 rfl, ?_⟩
    · rw [← Bool.not_eq_true]
      exact fun h => absurd ((hpath .interfaces "cpp").1 h) (by decide)
    · rw [← Bool.not_eq_true]
      exact fun h => absurd ((hpath .implementations "h").1 h) (by decide)

/-- Two mappings whose names differ in the case of their first letters, and the places of the two
units of their table class. -/
theorem class_names_recognised_net : Text.MatchesWordTail "net".toList ∧
    Text.MatchesWordTail "Net".toList ∧
    Strategy.array.className "net" = Strategy.array.className "Net" ∧
    isGenerated ⟨"include/GeneratedArrayNet.h"⟩ "h" = true ∧
    isGenerated ⟨"src/GeneratedArrayNet.cpp"⟩ "h" = false := by
  have hname : Text.MatchesWordTail "net".toList :=
    Text.isWordTail_iff_matchesWordTail.1 (by decide)
  have hname' : Text.MatchesWordTail "Net".toList :=
    Text.isWordTail_iff_matchesWordTail.1 (by decide)
  obtain ⟨-, -, hclass, -, -, hlayout⟩ := class_names_recognised hname hname' .array .array
  obtain ⟨hinterface, -, -, himplementation⟩ := hlayout ⟨⟨""⟩, ⟨"include"⟩, ⟨"src"⟩⟩
  refine ⟨hname, hname', hclass.2 (by decide), ?_, ?_⟩
  · exact hinterface
  · exact himplementation

end Output

end Switchboard
