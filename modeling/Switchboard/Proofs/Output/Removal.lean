import Switchboard.Proofs.Disk.Links
import Switchboard.Proofs.Disk.Runs
import Switchboard.Proofs.Output.Units

/-!
What cleaning removes. The files that are removed are told from the names in a listing, so what is
proved about them depends on what else is in the directory. Here it is units only (`Tidy`), and then a
cleaning that succeeds removes exactly the files of both directories. One that fails on the way has
removed some of them.
-/

namespace Switchboard.Output

open Disk

variable {system : System} {before store found : Store} {gone : List Path}
  {path directory : Path}

/-! ### Removing files -/

/-- Some files have been removed, and nothing else has happened. -/
structure Removed (before : Store) (gone : List Path) (after : Store) : Prop where
  continues : before.Continues after
  missing : ∀ path ∈ gone, after.file? (before.place path) = none
  others : ∀ location, (∀ path ∈ gone, before.place path ≠ location) →
    after.file? location = before.file? location

theorem Removed.start (hlinkless : before.Linkless) : Removed before [] before where
  continues := .refl hlinkless
  missing := nofun
  others _ _ := rfl

theorem Removed.next (h : Removed before gone store) (hremove : store.remove path = .ok found)
    (hcontinues : store.Continues found) : Removed before (gone ++ [path]) found := by
  obtain ⟨⟨node, hnode, hne⟩, rfl⟩ := Store.remove_eq_ok h.continues.linkless hremove
  have hplace : store.place path = before.place path := h.continues.place_eq path
  have hfile : ∀ location, (store.erase (store.place path)).file? location =
      if location = store.place path then none else store.file? location :=
    Store.file?_erase (Store.ne_nil_of_node? hnode hne)
  refine ⟨h.continues.trans hcontinues, fun other hother => ?_, fun location hlocation => ?_⟩
  · rw [hfile]
    split
    · rfl
    · next hne =>
      rcases List.mem_append.1 hother with hother | hother
      · exact h.missing other hother
      · rw [List.mem_singleton.1 hother, hplace] at hne
        exact absurd rfl hne
  · rw [hfile, if_neg, h.others location]
    · exact fun other hother => hlocation other (List.mem_append_left _ hother)
    · rw [hplace]
      exact (hlocation path (by simp)).symm

/-- Some of the files at the paths described have been removed. -/
def PartlyRemoved (before : Store) (described : Path → Prop) (after : Store) : Prop :=
  ∃ gone, (∀ path ∈ gone, described path) ∧ Removed before gone after

/-- Files are removed in order, up to the first that is refused. -/
theorem safe_removeFiles {described : Path → Prop} (h : Removed before gone store)
    (paths : List Path) (hall : ∀ path ∈ gone ++ paths, described path) :
    Job.Safe system (PartlyRemoved before described) (fun _ => Removed before (gone ++ paths))
      (fun _ _ => True) store (removeFiles paths) := by
  induction paths generalizing gone store with
  | nil => exact Job.safe_pure ⟨gone, by simpa using hall, h⟩ (by simpa using h)
  | cons path rest ih =>
      have hhere : PartlyRemoved before described store :=
        ⟨gone, fun _ hmem => hall _ (List.mem_append_left _ hmem), h⟩
      rw [show gone ++ path :: rest = gone ++ [path] ++ rest by simp] at hall ⊢
      have hfirst : Job.Safe system (PartlyRemoved before described)
          (fun _ => Removed before (gone ++ [path])) (fun _ _ => True) store
          (Job.attempt .remove path (Script.request (.remove path))) := by
        refine Job.safe_attempt
          (Script.safe_request (.remove path) hhere fun answer found hanswer => ?_)
        have hcontinues := hanswer.continues h.continues.linkless
        rcases hanswer.remove_cases with ⟨rfl, hremove⟩ | ⟨⟨cause, rfl⟩, rfl⟩
        · have hnext := h.next hremove hcontinues
          exact ⟨⟨_, fun _ hmem => hall _ (List.mem_append_left _ hmem), hnext⟩, hnext⟩
        · exact ⟨hhere, trivial⟩
      exact hfirst.bind fun _ found _ hnext => ih hnext hall

/-! ### Listing units -/

/-- All files of a directory are units with an extension, and the directory can be reached if there
are any. -/
structure Tidy (store : Store) (directory : Path) (extension : String) : Prop where
  isUnit : ∀ name, store.file? (name :: store.place directory) ≠ none →
    IsUnitName name ∧ isGenerated (directory.join name) extension = true
  hasDirectory : ∀ name, store.file? (name :: store.place directory) ≠ none →
    store.HasDirectory directory

/-- The path is that of a file in the directory. -/
def IsFileIn (store : Store) (directory path : Path) : Prop :=
  ∃ name, path = directory.join name ∧ store.file? (name :: store.place directory) ≠ none

/-- The paths are those of the files in a directory, each once. -/
def Enumerates (paths : List Path) (isFile : Path → Prop) : Prop :=
  paths.Nodup ∧ ∀ path, path ∈ paths ↔ isFile path

theorem join_injective {name name' : String} (h : Path.IsName name) (h' : Path.IsName name')
    (heq : directory.join name = directory.join name') : name = name' := by
  have hchars := congrArg (·.text.toList) heq
  simp only [Path.toList_join h.head?_ne, Path.toList_join h'.head?_ne] at hchars
  exact String.toList_inj.1 (List.append_cancel_left hchars)

/-- The names of the files with an extension that are units. -/
def unitNames (directory : Path) (extension : String) (entries : List (String × Kind)) :
    List String :=
  entries.filterMap fun (name, kind) =>
    if kind = .file ∧ isGenerated (directory.join name) extension then some name else none

theorem unitNames_sublist (directory : Path) (extension : String) (entries : List (String × Kind)) :
    (unitNames directory extension entries).Sublist (entries.map (·.1)) := by
  unfold unitNames
  induction entries with
  | nil => exact .slnil
  | cons entry rest ih =>
      rw [List.filterMap_cons, List.map_cons]
      split
      · exact ih.cons _
      · next name hname =>
        simp only [Option.ite_none_right_eq_some, Option.some.injEq] at hname
        obtain ⟨-, rfl⟩ := hname
        exact ih.cons_cons _

/-- They are those of the regular files that are taken for units. -/
theorem mem_unitNames_iff (hlisted : store.ListedOnce) {extension name : String} {above : Location} :
    name ∈ unitNames directory extension
        ((store.children above).map fun (name, node) => (name, node.kind)) ↔
      (∃ bytes, store.node? (name :: above) = some (.file (.regular bytes))) ∧
        isGenerated (directory.join name) extension = true := by
  unfold unitNames
  rw [List.filterMap_map, List.mem_filterMap]
  constructor
  · rintro ⟨⟨found, node⟩, hmem, hname⟩
    simp only [Function.comp_apply, Option.ite_none_right_eq_some, Option.some.injEq] at hname
    obtain ⟨⟨hkind, hgenerated⟩, rfl⟩ := hname
    obtain ⟨bytes, rfl⟩ := Node.kind_eq_file_iff.1 hkind
    exact ⟨⟨bytes, (Store.mem_children_iff hlisted).1 hmem⟩, hgenerated⟩
  · rintro ⟨⟨bytes, hfile⟩, hgenerated⟩
    refine ⟨(name, .file (.regular bytes)), (Store.mem_children_iff hlisted).2 hfile, ?_⟩
    simp [Node.kind, hgenerated]

theorem nodup_unitNames (hlisted : store.ListedOnce) (directory : Path) (extension : String)
    (above : Location) :
    (unitNames directory extension
      ((store.children above).map fun (name, node) => (name, node.kind))).Nodup := by
  have hsublist := unitNames_sublist directory extension
    ((store.children above).map fun (name, node) => (name, node.kind))
  rw [List.map_map] at hsublist
  exact (hlisted.children above).sublist hsublist

/-- The paths of the units in a directory are those of its files. -/
theorem enumerates_unitNames {extension : String} (hlisted : store.ListedOnce)
    (h : Tidy store directory extension) :
    Enumerates (((unitNames directory extension
      ((store.children (store.place directory)).map fun (name, node) =>
        (name, node.kind))).mergeSort fun a b => a ≤ b).map directory.join)
      (IsFileIn store directory) := by
  have hmem (name : String) : name ∈ unitNames directory extension
      ((store.children (store.place directory)).map fun (name, node) => (name, node.kind)) ↔
        store.file? (name :: store.place directory) ≠ none := by
    simp only [mem_unitNames_iff hlisted, Option.ne_none_iff_exists', Store.file?_eq_some_iff]
    refine and_iff_left_of_imp fun ⟨bytes, hfile⟩ => (h.isUnit name ?_).2
    simp [Store.file?_eq_some_iff.2 hfile]
  have hnodup := nodup_unitNames hlisted directory extension (store.place directory)
  constructor
  · refine List.Nodup.map_on ?_ ((List.mergeSort_perm _ _).nodup_iff.2 hnodup)
    intro name hname name' hname' heq
    rw [List.mem_mergeSort, hmem] at hname hname'
    exact join_injective (h.isUnit name hname).1.isName (h.isUnit name' hname').1.isName heq
  · intro path
    simp only [List.mem_map, List.mem_mergeSort, hmem]
    constructor
    · rintro ⟨name, hfile, rfl⟩
      exact ⟨name, rfl, hfile⟩
    · rintro ⟨name, rfl, hfile⟩
      exact ⟨name, hfile, rfl⟩

theorem finds_generatedFiles (hlisted : store.ListedOnce) (hlinkless : store.Linkless)
    {extension : String} (h : Tidy store directory extension) :
    (generatedFiles directory extension).Finds system store
      (Enumerates · (IsFileIn store directory)) := by
  have hlist : (Script.request (.list directory)).Safe system (· = store) (fun answer _ =>
      answer = store.list directory ∨ ∃ cause, answer = .error cause ∧ cause ≠ .missing) store :=
    Script.safe_request (.list directory) rfl fun answer found hanswer => hanswer.list_cases
  unfold generatedFiles
  refine (Job.safe_lift hlist).bind fun answer found hfound hanswer => ?_
  subst hfound
  split
  · -- The directory is really not there, for nothing else is ever said to be missing.
    have hmissing : found.list directory = .error .missing := by
      rcases hanswer with hanswer | ⟨cause, hanswer, hcause⟩
      · exact hanswer.symm
      · cases hanswer
        exact absurd rfl hcause
    refine Job.safe_pure rfl ⟨List.nodup_nil, fun path => ⟨nofun, ?_⟩⟩
    rintro ⟨name, -, hfile⟩
    obtain ⟨hlocate, hnode⟩ := h.hasDirectory name hfile
    simp [Store.list, hlocate, hnode, bind, Except.bind] at hmissing
  · exact Job.safe_fail rfl trivial
  · next entries =>
    rcases hanswer with hanswer | ⟨cause, hanswer, -⟩
    · obtain ⟨location, hleads, rfl⟩ := Store.list_eq_ok_iff.1 hanswer.symm
      obtain rfl := Store.locate_eq_place hlinkless hleads.locate
      exact Job.safe_pure rfl (enumerates_unitNames hlisted h)
    · cases hanswer

/-! ### Cleaning -/

/-- The path is that of a file in one of the directories for units. -/
def IsOutput (store : Store) (layout : Layout) (path : Path) : Prop :=
  ∃ tree : UnitTree, IsFileIn store (tree.directory layout) path

section

variable {extension extension' : String} {directory' : Path}

theorem IsFileIn.place_eq (htidy : Tidy store directory extension)
    (h : IsFileIn store directory path) :
    ∃ name, path = directory.join name ∧ store.place path = name :: store.place directory := by
  obtain ⟨name, rfl, hfile⟩ := h
  exact ⟨name, rfl, store.place_join_name directory (htidy.isUnit name hfile).1.isName⟩

/-- What is removed from one directory is not missing in another one. -/
theorem Removed.file?_other (htidy : Tidy store directory extension)
    (hne : store.place directory ≠ store.place directory')
    (hgone : ∀ path ∈ gone, IsFileIn store directory path) (h : Removed store gone found)
    (name : String) :
    found.file? (name :: store.place directory') = store.file? (name :: store.place directory') := by
  refine h.others _ fun path hpath hplace => ?_
  obtain ⟨found, -, heq⟩ := (hgone path hpath).place_eq htidy
  rw [heq, List.cons.injEq] at hplace
  exact hne hplace.2

theorem Removed.isFileIn_other_iff (htidy : Tidy store directory extension)
    (hne : store.place directory ≠ store.place directory')
    (hgone : ∀ path ∈ gone, IsFileIn store directory path) (h : Removed store gone found) :
    IsFileIn found directory' path ↔ IsFileIn store directory' path := by
  have hfile := h.file?_other htidy hne hgone
  simp only [IsFileIn, h.continues.place_eq, hfile]

theorem Removed.tidy_other (hlinkless : store.Linkless) (htidy : Tidy store directory extension)
    (htidy' : Tidy store directory' extension')
    (hne : store.place directory ≠ store.place directory')
    (hgone : ∀ path ∈ gone, IsFileIn store directory path) (h : Removed store gone found) :
    Tidy found directory' extension' := by
  have hfile := h.file?_other htidy hne hgone
  refine ⟨fun name hname => ?_, fun name hname => ?_⟩
  · rw [h.continues.place_eq, hfile] at hname
    exact htidy'.isUnit name hname
  · rw [h.continues.place_eq, hfile] at hname
    exact h.continues.hasDirectory hlinkless (htidy'.hasDirectory name hname)

end

section

variable {layout : Layout} (htidy : ∀ tree : UnitTree, Tidy store (tree.directory layout) tree.extension)
  (hne : store.place layout.includeDirectory ≠ store.place layout.sourceDirectory)

include htidy hne

theorem enumerates_append {interfaces implementations : List Path}
    (h : Enumerates interfaces (IsFileIn store layout.includeDirectory))
    (h' : Enumerates implementations (IsFileIn store layout.sourceDirectory)) :
    Enumerates (interfaces ++ implementations) (IsOutput store layout) := by
  refine ⟨List.nodup_append.2 ⟨h.1, h'.1, ?_⟩, fun path => ?_⟩
  · rintro path hpath _ hpath' rfl
    obtain ⟨name, -, hplace⟩ := ((h.2 path).1 hpath).place_eq (htidy .interfaces)
    obtain ⟨name', -, hplace'⟩ := ((h'.2 path).1 hpath').place_eq (htidy .implementations)
    rw [hplace, List.cons.injEq] at hplace'
    exact hne hplace'.2
  · rw [List.mem_append, h.2, h'.2]
    constructor
    · rintro (hfile | hfile)
      · exact ⟨.interfaces, hfile⟩
      · exact ⟨.implementations, hfile⟩
    · rintro ⟨_ | _, hfile⟩
      · exact .inl hfile
      · exact .inr hfile

/-- Cleaning removes files of the two directories and nothing else, and when it succeeds it has
removed all of them and returns their paths. -/
theorem safe_clean (system : System) (hlisted : store.ListedOnce) (hlinkless : store.Linkless) :
    Job.Safe system (PartlyRemoved store (IsOutput store layout))
      (fun paths found => Removed store paths found ∧ Enumerates paths (IsOutput store layout))
      (fun _ _ => True) store (clean layout) := by
  have hstart := Removed.start hlinkless
  have hpartly : PartlyRemoved store (IsOutput store layout) store := ⟨[], nofun, hstart⟩
  unfold clean
  refine (finds_generatedFiles hlisted hlinkless (htidy .interfaces)).safe_bind hpartly
    (fun _ => trivial) fun interfaces hinterfaces => ?_
  have hall : ∀ path ∈ interfaces, IsFileIn store layout.includeDirectory path :=
    fun path hpath => (hinterfaces.2 path).1 hpath
  refine (safe_removeFiles hstart interfaces fun path hpath =>
    ⟨.interfaces, hall path hpath⟩).bind fun _ found hfound hremoved => ?_
  rw [List.nil_append] at hremoved
  have hcontinues := hremoved.continues
  have htidy' := hremoved.tidy_other hlinkless (htidy .interfaces) (htidy .implementations) hne hall
  refine (finds_generatedFiles (hcontinues.listedOnce hlisted) hcontinues.linkless htidy').safe_bind
    hfound (fun _ => trivial) fun implementations himplementations => ?_
  have himplementations' : Enumerates implementations (IsFileIn store layout.sourceDirectory) :=
    ⟨himplementations.1, fun path => (himplementations.2 path).trans
      (hremoved.isFileIn_other_iff (htidy .interfaces) hne hall)⟩
  have henumerates := enumerates_append htidy hne hinterfaces himplementations'
  refine (safe_removeFiles hremoved implementations fun path hpath =>
    (henumerates.2 path).1 hpath).bind fun _ found hfound hremoved => ?_
  exact Job.safe_pure hfound ⟨hremoved, henumerates⟩

end

end Switchboard.Output
