import Switchboard.Proofs.Generation.Provenance
import Switchboard.Proofs.Output.Removal
import Switchboard.Proofs.Output.Stages

/-!
Sessions: any number of calls on one generator, of which some may fail, also midway. What holds of the
output directories after every call is that they hold nothing but complete units of mappings in the
store, and that no other file has changed (`Kept`).

The invariant is about mappings as well as units, because a unit has to be that of a mapping that is
still there. Mappings stay because they do not lie in the output directories: what lies there is a
unit, and a unit is no mapping. So writing units and removing units come to the same thing, a change
of units below the output directories, and one lemma (`Kept.next`) carries the invariant over both.
-/

namespace Switchboard

open Disk Output

/-! ### Calls -/

inductive Operation
  | load (path : Path)
  | render (path : Path) (strategy : Strategy)
  | generate (path : Path) (strategies : List Strategy)
  | generateDirectory (directory : Path)
  | clean

abbrev Operation.Reply : Operation → Type
  | load _ => Mapping
  | render _ _ => Artifact
  | generate _ _ | generateDirectory _ => List Written
  | clean => List Path

def Operation.job (generator : Generator) : (operation : Operation) → Job operation.Reply
  | load path => generator.load path
  | render path strategy => generator.render path strategy
  | generate path strategies => generator.generate path strategies
  | generateDirectory directory => generator.generateDirectory directory
  | clean => generator.clean

/-- The stores that a session can have led to, from the store it started in, with the calls made. -/
inductive Session (system : System) (generator : Generator) (start : Store) :
    List Operation → Store → Prop
  | start : Session system generator start [] start
  | call {operations : List Operation} {store store' : Store} {operation : Operation}
      {result : Except Fault operation.Reply} (hsession : Session system generator start operations store)
      (hrun : Script.Run system store (operation.job generator).run store' (.done result)) :
      Session system generator start (operations ++ [operation]) store'

/-! ### The invariant -/

namespace Generator

variable (generator : Generator)

def directory (tree : UnitTree) : Path :=
  tree.directory generator.layout

/-- The location lies in the directory of the tree, or is the directory itself. -/
def Covers (store : Store) (tree : UnitTree) (location : Location) : Prop :=
  store.place (generator.directory tree) <:+ location

/-- The file is the complete unit of a mapping in the store, under the name of its class. -/
def IsUnit (store : Store) (tree : UnitTree) (location : Location) (bytes : ByteArray) : Prop :=
  ∃ path mapping strategy artifact, mapping.IsAt store generator.config path ∧
    Artifact.emit mapping strategy generator.config = .ok artifact ∧
    location = tree.fileName (strategy.className mapping.name) ::
      store.place (generator.directory tree) ∧
    bytes = (tree.text artifact generator.config.indent).toUTF8

/-- There are no files in the tree but units. -/
def HoldsUnits (store : Store) (tree : UnitTree) : Prop :=
  ∀ location bytes, generator.Covers store tree location → store.file? location = some bytes →
    generator.IsUnit store tree location bytes

/-- What every call preserves. -/
structure Kept (start store : Store) : Prop where
  continues : start.Continues store
  listedOnce : store.ListedOnce
  holdsUnits : ∀ tree, generator.HoldsUnits store tree
  outside : ∀ location, (∀ tree, ¬ generator.Covers store tree location) →
    store.file? location = start.file? location
  /-- Listing a tree does not miss a unit. -/
  hasDirectory : ∀ tree name, store.file? (name :: store.place (generator.directory tree)) ≠ none →
    store.HasDirectory (generator.directory tree)

variable {generator} {start store found : Store} {tree : UnitTree} {location : Location}
  {bytes : ByteArray}

/-! ### The start -/

/-- A mapping does not lie in a directory of units. -/
theorem HoldsUnits.not_covers (htarget : generator.config.target = Target.standard)
    (h : generator.HoldsUnits store tree) {path : Path} {mapping : Mapping} {source : String}
    (hfile : store.file? location = some bytes) (hsource : String.fromUTF8? bytes = some source)
    (hmapping : Mapping.ofSource (Mapping.nameOfPath path) source generator.config = .ok mapping) :
    ¬ generator.Covers store tree location := by
  intro hcovers
  obtain ⟨_, _, _, artifact, -, hemit, -, rfl⟩ := h location bytes hcovers hfile
  rw [String.fromUTF8?_toUTF8] at hsource
  obtain rfl := Option.some.inj hsource
  have hsecond := tree.secondLineEmpty_text hemit (by rw [htarget]; decide) generator.config.indent
  exact Mapping.ofSource_ne_ok hsecond _ _ _ hmapping

theorem isAt_of_continues (htarget : generator.config.target = Target.standard)
    (hlinkless : store.Linkless) (hunits : ∀ tree, generator.HoldsUnits store tree)
    (hcontinues : store.Continues found)
    (houtside : ∀ location, (∀ tree, ¬ generator.Covers store tree location) →
      found.file? location = store.file? location)
    {path : Path} {mapping : Mapping} (h : mapping.IsAt store generator.config path) :
    mapping.IsAt found generator.config path := by
  obtain ⟨bytes, source, hread, hsource, hmapping⟩ := h
  obtain ⟨location, hlocate, hnode⟩ := Store.read_eq_ok_iff.1 hread
  have hfile := Store.file?_eq_some_iff.2 hnode
  have hfound : found.node? location = some (.file (.regular bytes)) := by
    rw [← Store.file?_eq_some_iff, houtside location fun tree =>
      (hunits tree).not_covers htarget hfile hsource hmapping, hfile]
  have hlocate' := hcontinues.locate hlinkless hlocate (by simp [hfound])
  exact ⟨bytes, source, Store.read_eq_ok_iff.2 ⟨location, hlocate', hfound⟩, hsource, hmapping⟩

/-! ### Changes of units -/

theorem covers_iff (h : store.Continues found) :
    generator.Covers found tree location ↔ generator.Covers store tree location := by
  rw [Covers, Covers, h.place_eq]

theorem directory_eq (htarget : generator.config.target = Target.standard) (tree : UnitTree) :
    generator.directory tree = tree.directory (Layout.of generator.root Target.standard) := by
  rw [directory, layout, htarget]

/-- A unit lies in its own tree only. -/
theorem IsUnit.eq_of_covers (htarget : generator.config.target = Target.standard)
    {other : UnitTree} (h : generator.IsUnit store other location bytes)
    (hcovers : generator.Covers store tree location) : tree = other := by
  obtain ⟨_, _, _, _, -, -, rfl, -⟩ := h
  rw [Covers, directory_eq htarget, directory_eq htarget] at hcovers
  exact UnitTree.eq_of_suffix hcovers

/-- The invariant is preserved as long as only units come and go. -/
theorem Kept.next (htarget : generator.config.target = Target.standard)
    (h : generator.Kept start store) (hcontinues : store.Continues found)
    (houtside : ∀ location, (∀ tree, ¬ generator.Covers store tree location) →
      found.file? location = store.file? location)
    (hinside : ∀ location bytes, found.file? location = some bytes →
      store.file? location = some bytes ∨
        ∃ tree, generator.IsUnit store tree location bytes ∧
          found.HasDirectory (generator.directory tree)) :
    generator.Kept start found := by
  have hlinkless := h.continues.linkless
  have hunit (tree : UnitTree) (location : Location) (bytes : ByteArray)
      (hunit : generator.IsUnit store tree location bytes) :
      generator.IsUnit found tree location bytes := by
    obtain ⟨path, mapping, strategy, artifact, hmapping, hemit, hlocation, hbytes⟩ := hunit
    refine ⟨path, mapping, strategy, artifact, ?_, hemit, ?_, hbytes⟩
    · exact isAt_of_continues htarget hlinkless h.holdsUnits hcontinues houtside hmapping
    · rw [hcontinues.place_eq]
      exact hlocation
  refine ⟨h.continues.trans hcontinues, hcontinues.listedOnce h.listedOnce,
    fun tree location bytes hcovers hfile => hunit _ _ _ ?_, fun location hnot => ?_,
    fun tree name hfile => ?_⟩
  · rw [covers_iff hcontinues] at hcovers
    rcases hinside location bytes hfile with hold | ⟨other, hnew, -⟩
    · exact h.holdsUnits tree location bytes hcovers hold
    · rwa [hnew.eq_of_covers htarget hcovers]
  · simp only [covers_iff hcontinues] at hnot
    rw [houtside location hnot, h.outside location hnot]
  · obtain ⟨bytes, hbytes⟩ := Option.ne_none_iff_exists'.1 hfile
    rcases hinside _ bytes hbytes with hold | ⟨other, hnew, hdirectory⟩
    · rw [hcontinues.place_eq] at hold
      exact hcontinues.hasDirectory hlinkless (h.hasDirectory tree name (by simp [hold]))
    · rw [hcontinues.place_eq] at hnew
      have hcovers : generator.Covers store tree (name :: store.place (generator.directory tree)) :=
        List.suffix_cons name _
      rwa [hnew.eq_of_covers htarget hcovers]

/-- A unit that has been put in place lies in a directory that can be reached. -/
theorem hasDirectory_of_locateEntry (htarget : generator.config.target = Target.standard)
    (hlinkless : store.Linkless) {name : String} (hname : Path.IsName name)
    (hentry : ∃ entry, store.locateEntry ((generator.directory tree).join name) = .ok entry) :
    store.HasDirectory (generator.directory tree) := by
  obtain ⟨⟨above, found⟩, hentry⟩ := hentry
  have hne : (generator.directory tree).text ≠ "" := by
    rw [directory_eq htarget]
    exact tree.text_directory_ne generator.root
  obtain ⟨hlocate, hnode⟩ := Store.locate_base_of_locateEntry hlinkless hne hname hentry
  obtain rfl := Store.locate_eq_place hlinkless hlocate
  exact ⟨hlocate, hnode⟩

/-- Units that are put in place are units of mappings, if their artifacts are. -/
theorem Kept.of_stage (htarget : generator.config.target = Target.standard)
    (h : generator.Kept start store) {artifacts : List Artifact}
    (hfrom : ∀ artifact ∈ artifacts, artifact.IsFrom store generator.config)
    {placed : List UnitFile}
    (hplaced : placed <+: UnitFile.ofArtifacts generator.layout generator.config.indent artifacts)
    (hstage : Stage store placed none found) : generator.Kept start found := by
  have hunit : ∀ unit ∈ placed, ∃ tree,
      generator.IsUnit store tree (store.place unit.path) unit.text.toUTF8 ∧
        found.HasDirectory (generator.directory tree) := by
    intro unit hunit
    obtain ⟨artifact, hmem, tree, rfl⟩ := UnitFile.mem_ofArtifacts.1 (hplaced.subset hunit)
    obtain ⟨path, mapping, strategy, hmapping, hemit⟩ := hfrom artifact hmem
    obtain ⟨plan, -, hclass⟩ := emit_eq_ok hemit
    have hname : IsUnitName (tree.unit generator.layout generator.config.indent artifact).name := by
      rw [UnitTree.unit, hclass]
      exact tree.isUnitName_fileName strategy mapping
    refine ⟨tree, ⟨path, mapping, strategy, artifact, hmapping, hemit, ?_, rfl⟩, ?_⟩
    · rw [UnitFile.place_path hname, ← hclass]
      rfl
    · exact hasDirectory_of_locateEntry htarget hstage.continues.linkless hname.isName
        (hstage.reachable _ hunit)
  have hfiles (location : Location) : found.file? location = contents store placed location :=
    hstage.files location (by simp)
  refine h.next htarget hstage.continues (fun location hnot => ?_) fun location bytes hfile => ?_
  · rw [hfiles]
    refine contents_of_forall_ne store placed fun unit hmem hplace => ?_
    obtain ⟨tree, ⟨_, _, _, _, -, -, hlocation, -⟩, -⟩ := hunit unit hmem
    rw [hplace] at hlocation
    exact hnot tree (hlocation ▸ List.suffix_cons _ _)
  · rw [hfiles] at hfile
    by_cases hplace : ∀ unit ∈ placed, store.place unit.path ≠ location
    · rw [contents_of_forall_ne store placed hplace] at hfile
      exact .inl hfile
    · push Not at hplace
      obtain ⟨unit, hmem, rfl⟩ := hplace
      obtain ⟨last, hlast, hplace, hcontents⟩ := contents_of_mem store placed hmem
      rw [hcontents] at hfile
      obtain rfl := Option.some.inj hfile
      exact .inr (hplace ▸ hunit last hlast)

theorem Kept.tidy (h : generator.Kept start store) (tree : UnitTree) :
    Tidy store (tree.directory generator.layout) tree.extension where
  isUnit name hfile := by
    obtain ⟨bytes, hbytes⟩ := Option.ne_none_iff_exists'.1 hfile
    obtain ⟨_, mapping, strategy, _, -, -, heq, -⟩ :=
      h.holdsUnits tree _ bytes (List.suffix_cons name _) hbytes
    obtain ⟨rfl, -⟩ := List.cons.inj heq
    exact ⟨tree.isUnitName_fileName strategy mapping, tree.isGenerated_fileName _ strategy mapping⟩
  hasDirectory name hfile := h.hasDirectory tree name hfile

theorem places_ne (htarget : generator.config.target = Target.standard) (store : Store) :
    store.place generator.layout.includeDirectory ≠ store.place generator.layout.sourceDirectory := by
  intro h
  have hcovers : store.place (generator.directory .interfaces) <:+
      "" :: store.place (generator.directory .implementations) := h ▸ List.suffix_cons _ _
  rw [directory_eq htarget, directory_eq htarget] at hcovers
  cases UnitTree.eq_of_suffix hcovers

section

variable {system : System} (hhides : system.HidesTemporaries) (hremoves : system.RemovesTemporaries)

include hhides hremoves

theorem safe_write (htarget : generator.config.target = Target.standard)
    (h : generator.Kept start store) {artifacts : List Artifact}
    (hfrom : ∀ artifact ∈ artifacts, artifact.IsFrom store generator.config) :
    Job.Safe system (fun _ => True) (fun _ => generator.Kept start) (fun _ => generator.Kept start) store
      (generator.write artifacts) := by
  have hsafe := safe_writeArtifacts hhides hremoves generator.layout generator.config.indent
    artifacts (List.nil_append _).symm (.start h.continues.linkless)
  refine hsafe.mono (fun _ _ => trivial) ?_ ?_
  · rintro written found ⟨-, hstage⟩
    exact h.of_stage htarget hfrom List.prefix_rfl hstage
  · rintro fault found ⟨placed, hplaced, hstage⟩
    exact h.of_stage htarget hfrom hplaced hstage

end

/-- A cleaning that succeeds returns the paths of all units and leaves none. -/
theorem Kept.clean {system : System} (htarget : generator.config.target = Target.standard)
    (h : generator.Kept start store) {paths : List Path}
    (hrun : Script.Run system store generator.clean.run found (.done (.ok paths))) :
    Enumerates paths (IsOutput store generator.layout) ∧
      ∀ tree location, generator.Covers store tree location → found.file? location = none := by
  have hclean := safe_clean h.tidy (places_ne htarget store) system h.listedOnce h.continues.linkless
  obtain ⟨hremoved, henumerates⟩ := (hclean found _ hrun).2 (.ok paths) rfl
  refine ⟨henumerates, fun tree location hcovers => ?_⟩
  by_contra hfile
  by_cases hmem : ∀ path ∈ paths, store.place path ≠ location
  · -- Then the file has been there before, as a unit of the tree, and its path is one of those.
    rw [hremoved.others location hmem] at hfile
    obtain ⟨bytes, hbytes⟩ := Option.ne_none_iff_exists'.1 hfile
    obtain ⟨_, mapping, strategy, _, -, -, rfl, -⟩ := h.holdsUnits tree location bytes hcovers hbytes
    have hname := (tree.isUnitName_fileName strategy mapping).isName
    refine hmem _ ((henumerates.2 _).2 ⟨tree, _, rfl, hfile⟩) ?_
    exact store.place_join_name (generator.directory tree) hname
  · push Not at hmem
    obtain ⟨path, hpath, rfl⟩ := hmem
    exact hfile (hremoved.missing path hpath)

end Generator

end Switchboard
