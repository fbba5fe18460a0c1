import Switchboard.Output.Clean
import Switchboard.Output.Write
import Switchboard.Proofs.Disk.Changes
import Switchboard.Proofs.Mapping.Accepted
import Switchboard.Proofs.Plan.Order
import Switchboard.Proofs.Text.Pieces

/-!
Unit files: what is written for artifacts and under which names. The name of a unit is a class name
with an extension, and a class name is a word that begins with a fixed stem. So a unit is an entry of
its directory, it is never taken for a temporary file, and it is one of the files that are removed
again. Two units of one run can only come to lie at one place if they have one path.

Interfaces go to one directory and implementations to another, and apart from that they are treated
alike, so what is said of them is said of either tree. In the standard layout neither tree lies in the
other, and a file that lies in one of them belongs to no other.
-/

namespace Switchboard

open Disk

/-! ### Class names -/

namespace Text

theorem isWordChar_toUpper {c : Char} (h : isWordChar c) : isWordChar c.toUpper := by
  have all : ∀ n < 128, isWordChar (Char.ofNat n) → isWordChar (Char.ofNat n).toUpper := by
    decide +kernel
  have hupper := all c.toNat (toNat_lt_of_isWordChar h)
  rw [Char.ofNat_toNat] at hupper
  exact hupper h

theorem isWordTail_capitalize {text : String} (h : isWordTail text) :
    isWordTail (capitalize text) := by
  obtain ⟨hne, hall⟩ := isWordTail_eq_true_iff.1 h
  unfold capitalize
  cases hchars : text.toList with
  | nil => exact absurd hchars hne
  | cons first rest =>
      rw [hchars] at hall
      have hfirst := hall first List.mem_cons_self
      simp only [uppercase_of_ascii (toNat_lt_of_isWordChar hfirst)]
      refine isWordTail_eq_true_iff.2 ⟨by simp, ?_⟩
      simp only [String.toList_ofList, List.mem_append, List.mem_singleton]
      rintro c (rfl | hc)
      · exact isWordChar_toUpper hfirst
      · exact hall c (List.mem_cons_of_mem _ hc)

end Text

namespace Strategy

variable (strategy : Strategy) {name : String}

theorem head?_className (name : String) : (strategy.className name).toList.head? = some 'G' := by
  simp [className, classStem]

theorem isWordChar_of_mem_className (h : Text.isWordTail name) :
    ∀ c ∈ (strategy.className name).toList, Text.isWordChar c := by
  have hcapital := (Text.isWordTail_eq_true_iff.1 (Text.isWordTail_capitalize h)).2
  have hstem : classStem.toList.all Text.isWordChar := by decide
  have hlabel : strategy.label.toList.all Text.isWordChar := by cases strategy <;> decide
  intro c hc
  simp only [className, String.toList_append, List.mem_append] at hc
  rcases hc with (hc | hc) | hc
  · exact List.all_eq_true.1 hstem c hc
  · exact List.all_eq_true.1 hlabel c hc
  · exact hcapital c hc

end Strategy

namespace Output

theorem afterStem?_append (stem tail : String) : afterStem? stem (stem ++ tail) = some tail := by
  simp [afterStem?]

theorem isClassName_className (strategy : Strategy) {name : String} (h : Text.isWordTail name) :
    isClassName (strategy.className name) = true := by
  unfold isClassName Strategy.className
  rw [String.append_assoc, afterStem?_append]
  refine List.any_eq_true.2 ⟨strategy, strategy.mem_all, ?_⟩
  rw [afterStem?_append]
  exact Text.isWordTail_capitalize h

/-! ### Unit names -/

/-- A name that only units have. -/
structure IsUnitName (name : String) : Prop where
  isName : Path.IsName name
  head? : name.toList.head? = some 'G'

theorem IsUnitName.ne_of_head? {name other : String} (h : IsUnitName name)
    (hother : other.toList.head? = some '.') : name ≠ other := by
  rintro rfl
  have hhead := h.head?.symm.trans hother
  revert hhead
  decide

/-- The name of a class with an extension is the name of a unit. -/
theorem isUnitName_className (strategy : Strategy) {name extension : String}
    (h : Text.isWordTail name) (hextension : '/' ∉ extension.toList) :
    IsUnitName (strategy.className name ++ "." ++ extension) := by
  have hhead : (strategy.className name ++ "." ++ extension).toList.head? = some 'G' := by
    simp [strategy.head?_className name]
  refine ⟨.of_head hhead (by decide) fun hslash => ?_, hhead⟩
  simp only [String.toList_append, List.mem_append] at hslash
  rcases hslash with (hslash | hslash) | hslash
  · exact absurd (strategy.isWordChar_of_mem_className h _ hslash) (by decide)
  · exact absurd hslash (by decide)
  · exact hextension hslash

/-! ### Emitted artifacts -/

theorem emit_eq_ok {mapping : Mapping} {strategy : Strategy} {config : Config} {artifact : Artifact}
    (h : Artifact.emit mapping strategy config = .ok artifact) :
    ∃ plan, artifact = Artifact.ofPlan config.target mapping.name plan ∧
      artifact.className = strategy.className mapping.name := by
  obtain ⟨plan, hplan, rfl⟩ := Except.map_eq_ok_iff.1 h
  exact ⟨plan, rfl, by rw [← Plan.strategy_ofMapping hplan]; rfl⟩

/-- An artifact as it comes from a mapping. -/
def IsEmitted (artifact : Artifact) : Prop :=
  ∃ mapping strategy config, Artifact.emit mapping strategy config = .ok artifact

/-- The artifact of three protocols. -/
def switchOfIpProtocols : Artifact :=
  Artifact.ofPlan Target.standard "ip" (.switch (SwitchPlan.ofMapping Mapping.ipProtocols))

/-! ### Unit files -/

/-- A text and the directory and name it is written under. -/
structure UnitFile where
  directory : Path
  name : String
  text : String

def UnitFile.path (unit : UnitFile) : Path :=
  unit.directory.join unit.name

/-- Of the two directories for units, the one for interfaces or that for implementations. -/
inductive UnitTree
  | interfaces
  | implementations
deriving DecidableEq

namespace UnitTree

def directory (layout : Layout) : UnitTree → Path
  | interfaces => layout.includeDirectory
  | implementations => layout.sourceDirectory

def extension : UnitTree → String
  | interfaces => "h"
  | implementations => "cpp"

/-- The name of the unit of a class. -/
def fileName : UnitTree → String → String
  | interfaces => Artifact.interfaceFile
  | implementations => Artifact.implementationFile

/-- What is in the unit of an artifact. -/
def text : UnitTree → Artifact → Indent → String
  | interfaces => Artifact.interfaceText
  | implementations => Artifact.implementationText

def unit (layout : Layout) (indent : Indent) (artifact : Artifact) (tree : UnitTree) : UnitFile where
  directory := tree.directory layout
  name := tree.fileName artifact.className
  text := tree.text artifact indent

variable (tree : UnitTree)

theorem fileName_eq (className : String) :
    tree.fileName className = className ++ "." ++ tree.extension := by
  rw [String.append_assoc]
  cases tree <;> rfl

theorem fileName_injective : Function.Injective tree.fileName := by
  intro className className' h
  rw [fileName_eq, fileName_eq, ← String.toList_inj] at h
  simpa [String.toList_inj] using h

theorem slash_not_mem_extension : '/' ∉ tree.extension.toList := by
  cases tree <;> decide

theorem dot_not_mem_extension : '.' ∉ tree.extension.toList := by
  cases tree <;> decide

theorem isUnitName_fileName (strategy : Strategy) (mapping : Mapping) :
    IsUnitName (tree.fileName (strategy.className mapping.name)) := by
  rw [fileName_eq]
  exact isUnitName_className strategy mapping.name_isWordTail tree.slash_not_mem_extension

/-- The name of a unit is cut into the name of the class and the extension of the tree. -/
theorem splitExtension_fileName (strategy : Strategy) (name : String) :
    Path.splitExtension (tree.fileName (strategy.className name)) =
      (strategy.className name, some tree.extension) := by
  have hne : strategy.className name ≠ "" := by simp [Strategy.className, Strategy.classStem]
  rw [fileName_eq, Path.splitExtension_append hne tree.dot_not_mem_extension]

theorem stem?_join (layout : Layout) (strategy : Strategy) (mapping : Mapping) :
    ((tree.directory layout).join (tree.fileName (strategy.className mapping.name))).stem? =
      some (strategy.className mapping.name) := by
  rw [Path.stem?, Path.fileName?_join _ (tree.isUnitName_fileName strategy mapping).isName,
    Option.map_some, splitExtension_fileName]

theorem isGenerated_fileName (layout : Layout) (strategy : Strategy) (mapping : Mapping) :
    isGenerated ((tree.directory layout).join (tree.fileName (strategy.className mapping.name)))
      tree.extension = true := by
  have hfile := Path.fileName?_join (tree.directory layout)
    (tree.isUnitName_fileName strategy mapping).isName
  simp [isGenerated, Path.extension?, Path.stem?, hfile, splitExtension_fileName,
    isClassName_className strategy mapping.name_isWordTail]

/-- The name of a unit tells its tree. -/
theorem eq_of_fileName_eq {tree other : UnitTree} {className className' : String}
    (h : tree.fileName className = other.fileName className') : tree = other := by
  have hlast := congrArg (·.toList.getLast?) h
  rw [fileName_eq, fileName_eq] at hlast
  revert hlast
  cases tree <;> cases other <;> simp [extension]

/-! ### Layouts -/

/-- The directory of the tree in the root of the output. -/
def top : UnitTree → String
  | interfaces => "include"
  | implementations => "src"

theorem isName_top : Path.IsName tree.top := by
  cases tree
  · exact ⟨by decide, by decide, by decide, by decide⟩
  · exact ⟨by decide, by decide, by decide, by decide⟩

theorem directory_of (root : Path) (target : Target) : tree.directory (Layout.of root target) =
    (root.join tree.top).join target.includePrefix := by
  cases tree <;> rfl

/-! In the standard layout neither tree lies in the other. -/

theorem place_directory (store : Store) (root : Path) :
    store.place (tree.directory (Layout.of root Target.standard)) =
      "metaprogramming" :: "dispatchers" :: tree.top :: store.place root := by
  rw [directory_of, store.place_join _ (by decide), store.place_join_name root tree.isName_top]
  rfl

theorem text_directory_ne (root : Path) :
    (tree.directory (Layout.of root Target.standard)).text ≠ "" := by
  rw [directory_of, ne_eq, ← String.toList_inj, Path.toList_join (by decide)]
  simp [Target.standard]

/-- What lies directly in one tree does not lie in the other. -/
theorem eq_of_suffix {tree other : UnitTree} {store : Store} {root : Path} {name : String}
    (h : store.place (tree.directory (Layout.of root Target.standard)) <:+
      name :: store.place (other.directory (Layout.of root Target.standard))) : tree = other := by
  rw [place_directory, place_directory] at h
  rcases List.suffix_cons_iff.1 h with heq | hsuffix
  · have hlength := congrArg List.length heq
    simp at hlength
  · have heq := hsuffix.eq_of_length rfl
    have htop : tree.top = other.top := by simpa using heq
    revert htop
    cases tree <;> cases other <;> decide

end UnitTree

/-! ### The units of a run -/

namespace UnitFile

/-- The units of some artifacts, in the order in which they are written. -/
def ofArtifacts (layout : Layout) (indent : Indent) (artifacts : List Artifact) : List UnitFile :=
  artifacts.flatMap fun artifact =>
    [.interfaces, .implementations].map (UnitTree.unit layout indent artifact)

variable {layout : Layout} {indent : Indent} {artifacts : List Artifact} {unit other : UnitFile}

theorem mem_ofArtifacts : unit ∈ ofArtifacts layout indent artifacts ↔
    ∃ artifact ∈ artifacts, ∃ tree : UnitTree, unit = tree.unit layout indent artifact := by
  simp only [ofArtifacts, List.mem_flatMap, List.mem_map]
  constructor
  · rintro ⟨artifact, hmem, tree, -, rfl⟩
    exact ⟨artifact, hmem, tree, rfl⟩
  · rintro ⟨artifact, hmem, tree, rfl⟩
    exact ⟨artifact, hmem, tree, by cases tree <;> decide, rfl⟩

theorem isUnitName (h : ∀ artifact ∈ artifacts, IsEmitted artifact)
    (hunit : unit ∈ ofArtifacts layout indent artifacts) : IsUnitName unit.name := by
  obtain ⟨artifact, hmem, tree, rfl⟩ := mem_ofArtifacts.1 hunit
  obtain ⟨mapping, strategy, config, hemit⟩ := h artifact hmem
  obtain ⟨plan, -, hclass⟩ := emit_eq_ok hemit
  rw [UnitTree.unit, hclass]
  exact tree.isUnitName_fileName strategy mapping

theorem place_path (h : IsUnitName unit.name) (store : Store) :
    store.place unit.path = unit.name :: store.place unit.directory :=
  Store.place_join_name store unit.directory h.isName

/-- Units at one place have one path: their names tell the directory. -/
theorem path_eq_of_place_eq (h : ∀ artifact ∈ artifacts, IsEmitted artifact) {store : Store}
    (hunit : unit ∈ ofArtifacts layout indent artifacts)
    (hother : other ∈ ofArtifacts layout indent artifacts)
    (hplace : store.place unit.path = store.place other.path) : unit.path = other.path := by
  rw [place_path (isUnitName h hunit), place_path (isUnitName h hother), List.cons.injEq] at hplace
  obtain ⟨artifact, -, tree, rfl⟩ := mem_ofArtifacts.1 hunit
  obtain ⟨artifact', -, tree', rfl⟩ := mem_ofArtifacts.1 hother
  obtain rfl := UnitTree.eq_of_fileName_eq hplace.1
  exact congrArg (tree.directory layout).join hplace.1

end UnitFile

end Output

end Switchboard
