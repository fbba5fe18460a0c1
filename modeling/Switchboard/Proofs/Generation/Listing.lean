import Mathlib.Data.List.Pairwise
import Switchboard.Proofs.Disk.Links
import Switchboard.Proofs.Disk.Orders
import Switchboard.Proofs.Disk.Room
import Switchboard.Proofs.Generation.Directory

/-!
What is seen in a directory. A directory of mappings has only files in it, hidden entries aside, and the
files come in the order of their names, in whatever order a store lists them. So all that a run over a
directory depends on is what its visible entries are and what stands in them.
-/

namespace Switchboard

open Disk

/-! ### Inspection -/

variable {store after : Store} {path directory : Path} {name : String}

theorem Disk.Store.inspect_eq_ok_iff {kind : Kind} : store.inspect path = .ok kind ↔
    ∃ location node, store.locate path = .ok location ∧ store.node? location = some node ∧
      node.kind = kind := by
  unfold inspect
  cases store.locate path with
  | error cause => simp [bind, Except.bind]
  | ok location => cases hnode : store.node? location <;> simp [bind, Except.bind, hnode]

theorem inspectPath_eq_ok_iff {kind : Kind} :
    (inspectPath path).result store = .ok kind ↔ store.inspect path = .ok kind := by
  have hrun : store.run (Script.request (.inspect path)) = (store.inspect path, store) := rfl
  rw [Job.result, inspectPath, Store.perform_bind, Store.perform_lift, hrun]
  cases store.inspect path with
  | ok found => simp
  | error cause => cases cause <;> simp

theorem requireFile_eq_ok_iff :
    (requireFile path).result store = .ok () ↔ store.inspect path = .ok .file := by
  rw [requireFile, Job.result_bind (onlyReads_inspectPath path), Except.bind_eq_ok_iff]
  simp only [inspectPath_eq_ok_iff]
  constructor
  · rintro ⟨kind, hkind, hfile⟩
    cases kind with
    | file => exact hkind
    | directory | link | special => cases hfile
  · exact fun h => ⟨.file, h, rfl⟩

theorem requireDirectory_eq_ok_iff :
    (requireDirectory path).result store = .ok () ↔ ∃ location, store.LeadsTo path location := by
  rw [requireDirectory, Job.result_bind (onlyReads_inspectPath path), Except.bind_eq_ok_iff]
  simp only [inspectPath_eq_ok_iff, Store.inspect_eq_ok_iff]
  constructor
  · rintro ⟨kind, ⟨location, node, hlocate, hnode, rfl⟩, hdirectory⟩
    refine ⟨location, hlocate, ?_⟩
    by_cases hkind : node.kind = .directory
    · rw [hnode, Node.kind_eq_directory_iff.1 hkind]
    · rw [if_neg hkind] at hdirectory
      cases hdirectory
  · rintro ⟨location, hlocate, hnode⟩
    exact ⟨.directory, ⟨location, _, hlocate, hnode, rfl⟩, rfl⟩

/-- Without links it can be told from the names where a directory is. -/
theorem Disk.Store.leadsTo_iff (hlinkless : store.Linkless) {location : Location} :
    store.LeadsTo path location ↔ store.HasDirectory path ∧ location = store.place path := by
  constructor
  · intro h
    obtain rfl := Store.locate_eq_place hlinkless h.locate
    exact ⟨⟨h.locate, h.node⟩, rfl⟩
  · rintro ⟨⟨hlocate, hnode⟩, rfl⟩
    exact ⟨hlocate, hnode⟩

/-! ### Visible entries -/

/-- The names in a directory that are not hidden. -/
def visibleNames (store : Store) (location : Location) : List String :=
  ((store.children location).map (·.1)).filter (!isHidden ·)

theorem mem_visibleNames {location : Location} : name ∈ visibleNames store location ↔
    isHidden name = false ∧ store.node? (name :: location) ≠ none := by
  rw [visibleNames, List.mem_filter, Store.mem_children_map_iff, Bool.not_eq_true', and_comm]

theorem mem_visibleNames_of_node? {location : Location} {node : Node} (hvisible : isHidden name = false)
    (hnode : store.node? (name :: location) = some node) : name ∈ visibleNames store location :=
  mem_visibleNames.2 ⟨hvisible, by simp [hnode]⟩

/-- The entries of a directory, shown in some order, are visible as they are in the store. -/
theorem perm_visibleNames {location : Location} {shown : List (String × Kind)}
    (h : shown.Perm ((store.children location).map fun (name, node) => (name, node.kind))) :
    ((shown.map (·.1)).filter (!isHidden ·)).Perm (visibleNames store location) := by
  have hperm := (h.map (·.1)).filter (!isHidden ·)
  rwa [List.map_map] at hperm

/-- What the mapping files of a directory are if it is listed like this. -/
def mappingsOf (store : Store) (directory : Path) (answer : Except Cause (List (String × Kind))) :
    Except Fault (List Path) := do
  (requireDirectory directory).result store
  let entries ← answer.mapError (.disk .list directory)
  let names := (entries.map (·.1)).filter (!isHidden ·)
  (names.forM fun name => requireFile (directory.join name)).result store
  return (names.mergeSort fun a b => a ≤ b).map directory.join

/-- In whatever order a directory is listed, nothing but the listing matters. -/
theorem performs_mappingFiles_iff {result : Except Fault (List Path)} :
    store.Performs (mappingFiles directory) result after ↔ after = store ∧
      ∃ answer, store.Shows (.list directory) answer ∧ result = mappingsOf store directory answer := by
  have hreads (names : List String) :
      OnlyReads (names.forM fun name => requireFile (directory.join name)) :=
    Job.keeps_forM fun name => onlyReads_requireFile (directory.join name)
  have hlists (names : List String) : Job.Keeps (·.isListing = false) (·.isOfWriting = false)
      (names.forM fun name => requireFile (directory.join name)) :=
    Job.keeps_forM fun name => keeps_requireFile rfl
  have hdirectory : Job.Keeps (·.isListing = false) (·.isOfWriting = false)
      (requireDirectory directory) := keeps_requireDirectory rfl
  rw [mappingFiles,
    Store.performs_bind_iff_of_reads (onlyReads_requireDirectory directory) hdirectory]
  unfold mappingsOf
  cases (requireDirectory directory).result store with
  | error fault =>
      refine and_congr_right fun _ => ⟨fun h => ⟨_, .served _, h⟩, ?_⟩
      rintro ⟨_, -, h⟩
      exact h
  | ok _ =>
      dsimp only
      rw [Store.performs_list_bind_iff (fun entries => (hreads _).bind fun _ => Job.keeps_pure _)
        fun entries => (hlists _).bind fun _ => Job.keeps_pure _]
      simp only [Job.result_bind (hreads _)]
      rfl

/-- The mapping files of a directory are its visible entries, all of which are files, in whatever order
they are listed. -/
theorem mappingsOf_eq_ok_iff {answer : Except Cause (List (String × Kind))}
    (h : store.Shows (.list directory) answer) {paths : List Path} :
    mappingsOf store directory answer = .ok paths ↔ ∃ location, store.LeadsTo directory location ∧
      (∀ name ∈ visibleNames store location, store.inspect (directory.join name) = .ok .file) ∧
      paths = ((visibleNames store location).mergeSort fun a b => a ≤ b).map directory.join := by
  have hreads (name : String) : OnlyReads (requireFile (directory.join name)) :=
    onlyReads_requireFile (directory.join name)
  have hshown {location : Location} (hleads : store.LeadsTo directory location) :
      ∃ shown : List (String × Kind), answer = .ok shown ∧
        ((shown.map (·.1)).filter (!isHidden ·)).Perm (visibleNames store location) := by
    have hlist := Store.list_eq_ok_iff.2 ⟨location, hleads, rfl⟩
    rcases Store.shows_list_iff.1 h with ⟨cause, hcause, -⟩ | ⟨entries, shown, hentries, hperm, rfl⟩
    · rw [hlist] at hcause
      cases hcause
    · rw [hlist, Except.ok.injEq] at hentries
      exact ⟨shown, rfl, perm_visibleNames (hentries ▸ hperm)⟩
  have hfiles {location : Location} {names : List String}
      (hperm : names.Perm (visibleNames store location)) :
      (names.forM fun name => requireFile (directory.join name)).result store = .ok () ↔
        ∀ name ∈ visibleNames store location, store.inspect (directory.join name) = .ok .file := by
    rw [Job.result_forM_eq_ok_iff hreads]
    simp only [requireFile_eq_ok_iff, hperm.mem_iff]
  unfold mappingsOf
  constructor
  · intro heq
    obtain ⟨_, hdirectory, heq⟩ := Except.bind_eq_ok_iff.1 heq
    obtain ⟨location, hleads⟩ := requireDirectory_eq_ok_iff.1 hdirectory
    obtain ⟨shown, rfl, hperm⟩ := hshown hleads
    obtain ⟨_, hentries, heq⟩ := Except.bind_eq_ok_iff.1 heq
    cases hentries
    obtain ⟨_, hcheck, heq⟩ := Except.bind_eq_ok_iff.1 heq
    cases heq
    exact ⟨location, hleads, (hfiles hperm).1 hcheck, by rw [Text.mergeSort_eq_of_perm hperm]⟩
  · rintro ⟨location, hleads, hcheck, rfl⟩
    obtain ⟨shown, rfl, hperm⟩ := hshown hleads
    refine Except.bind_eq_ok_iff.2 ⟨(), requireDirectory_eq_ok_iff.2 ⟨location, hleads⟩, ?_⟩
    refine Except.bind_eq_ok_iff.2 ⟨shown, rfl, ?_⟩
    refine Except.bind_eq_ok_iff.2 ⟨(), (hfiles hperm).2 hcheck, ?_⟩
    rw [Text.mergeSort_eq_of_perm hperm]
    rfl

/-- Without links, that is how the store itself lists them. -/
theorem mappingFiles_eq_ok_iff (hlinkless : store.Linkless) {paths : List Path} :
    (mappingFiles directory).result store = .ok paths ↔ store.HasDirectory directory ∧
      (∀ name ∈ visibleNames store (store.place directory),
        store.inspect (directory.join name) = .ok .file) ∧
      paths = ((visibleNames store (store.place directory)).mergeSort fun a b => a ≤ b).map
        directory.join := by
  obtain ⟨-, answer, hshows, hresult⟩ :=
    performs_mappingFiles_iff.1 (store.runsTo_run (ExceptT.run (mappingFiles directory)))
  have heq : (mappingFiles directory).result store = mappingsOf store directory answer := hresult
  rw [heq, mappingsOf_eq_ok_iff hshows]
  simp only [Store.leadsTo_iff hlinkless, and_assoc]
  constructor
  · rintro ⟨_, hdirectory, rfl, hfiles, hpaths⟩
    exact ⟨hdirectory, hfiles, hpaths⟩
  · rintro ⟨hdirectory, hfiles, hpaths⟩
    exact ⟨_, hdirectory, rfl, hfiles, hpaths⟩

/-! ### A later store -/

/-- A store like a file system without links: each location is listed once, under names. -/
structure Disk.Store.Plain (store : Store) : Prop where
  linkless : store.Linkless
  listedOnce : store.ListedOnce
  isName : ∀ name above, store.node? (name :: above) ≠ none → Path.IsName name

/-- A file that a store still has can be read there as before. -/
theorem Disk.Store.Continues.inspect_read (hcontinues : store.Continues after)
    (hlinkless : store.Linkless) (hsame : after.node? (store.place path) = store.node? (store.place path))
    (h : store.inspect path = .ok .file) :
    after.inspect path = .ok .file ∧ after.read path = store.read path := by
  obtain ⟨location, node, hlocate, hnode, hkind⟩ := Store.inspect_eq_ok_iff.1 h
  obtain rfl := Store.locate_eq_place hlinkless hlocate
  have hnode' := hsame.trans hnode
  have hlocate' := hcontinues.locate hlinkless hlocate (by simp [hnode'])
  refine ⟨Store.inspect_eq_ok_iff.2 ⟨_, node, hlocate', hnode', hkind⟩, ?_⟩
  obtain ⟨bytes, rfl⟩ := Node.kind_eq_file_iff.1 hkind
  rw [Store.read_eq_ok_iff.2 ⟨_, hlocate', hnode'⟩, Store.read_eq_ok_iff.2 ⟨_, hlocate, hnode⟩]

/-- In what order a store lists the entries of a directory does not matter. -/
theorem mergeSort_visibleNames_eq {location : Location} (hlisted : store.ListedOnce)
    (hlisted' : after.ListedOnce)
    (hmem : ∀ name, name ∈ visibleNames after location ↔ name ∈ visibleNames store location) :
    ((visibleNames after location).mergeSort fun a b => a ≤ b) =
      (visibleNames store location).mergeSort fun a b => a ≤ b := by
  have hnodup := (hlisted.children location).filter (!isHidden ·)
  have hnodup' := (hlisted'.children location).filter (!isHidden ·)
  exact Text.mergeSort_eq_of_perm ((List.perm_ext_iff_of_nodup hnodup' hnodup).2 hmem)

/-- The directory has the same visible entries, and its files can still be read, if nothing visible has
changed in it. -/
theorem mappingFiles_of_visible (hplain : store.Plain) (hcontinues : store.Continues after)
    (hsame : ∀ name, isHidden name = false →
      after.node? (name :: store.place directory) = store.node? (name :: store.place directory))
    {paths : List Path} (h : (mappingFiles directory).result store = .ok paths) :
    (mappingFiles directory).result after = .ok paths ∧
      ∀ path ∈ paths, after.read path = store.read path := by
  have hlinkless := hplain.linkless
  obtain ⟨hdirectory, hfiles, rfl⟩ := (mappingFiles_eq_ok_iff hlinkless).1 h
  have hmem (name : String) : name ∈ visibleNames after (store.place directory) ↔
      name ∈ visibleNames store (store.place directory) := by
    rw [mem_visibleNames, mem_visibleNames]
    exact and_congr_right fun hvisible => by rw [hsame name hvisible]
  have hsorted :=
    mergeSort_visibleNames_eq hplain.listedOnce (hcontinues.listedOnce hplain.listedOnce) hmem
  have hentry (name : String) (hname : name ∈ visibleNames store (store.place directory)) :
      after.inspect (directory.join name) = .ok .file ∧
        after.read (directory.join name) = store.read (directory.join name) := by
    obtain ⟨hvisible, hnode⟩ := mem_visibleNames.1 hname
    have hplace : store.place (directory.join name) = name :: store.place directory :=
      store.place_join_name directory (hplain.isName _ _ hnode)
    have hsame' := hsame name hvisible
    rw [← hplace] at hsame'
    exact hcontinues.inspect_read hlinkless hsame' (hfiles name hname)
  refine ⟨(mappingFiles_eq_ok_iff hcontinues.linkless).2 ⟨hcontinues.hasDirectory hlinkless hdirectory,
    fun name hname => (hentry name ((hmem name).1 ?_)).1, ?_⟩, ?_⟩
  · rwa [hcontinues.place_eq] at hname
  · rw [hcontinues.place_eq, hsorted]
  · intro path hpath
    obtain ⟨name, hname, rfl⟩ := List.mem_map.1 hpath
    exact (hentry name (List.mem_mergeSort.1 hname)).2

end Switchboard
