import Switchboard.Proofs.Disk.Links
import Switchboard.Proofs.Disk.Results
import Switchboard.Proofs.Output.Recognition
import Switchboard.Proofs.Output.Removal
import Switchboard.Proofs.Text.Sorting

/-!
Exactly what cleaning removes, whatever else there is. The directories for units may be reached over
links, one of them may be missing, both may be one, and they may hold anything: subdirectories, links,
files that nobody generated. What cleaning takes is told by three things only (`HoldsUnit`): the path leads
to a directory, a regular file stands in it, and the name of the file is one that a unit could have.

A store that has lost such files still has all its directories and links, so the other directory is found
where it was, and its units are the same, since no name is that of a unit with either extension. A second
cleaning finds both directories where they were, or misses them again, and no unit in them.
-/

namespace Switchboard.Output

open Disk

variable {store after : Store} {directory : Path} {extension : String} {above : Location}
  {name : String}

/-! ### Units in a directory -/

/-- Under a name, a directory has a regular file that is taken for a generated unit. -/
structure HoldsUnit (store : Store) (directory : Path) (extension : String) (name : String)
    (above : Location) : Prop where
  leadsTo : store.LeadsTo directory above
  file : ∃ bytes, store.node? (name :: above) = some (.file (.regular bytes))
  generated : isGenerated (directory.join name) extension = true

theorem HoldsUnit.isName (hstore : store.Sound) (h : HoldsUnit store directory extension name above) :
    Path.IsName name := by
  obtain ⟨bytes, hfile⟩ := h.file
  exact hstore.isName name above (by simp [hfile])

/-- A name that is not idle is that of a unit with one extension only, in whatever directories. -/
theorem eq_of_isGenerated_join (hname : Path.IsName name) {directory' : Path} {extension' : String}
    (h : isGenerated (directory.join name) extension = true)
    (h' : isGenerated (directory'.join name) extension' = true) : extension = extension' := by
  rw [isGenerated_of_fileName? (Path.fileName?_join _ hname)] at h h'
  exact Option.some.inj (h.1.symm.trans h'.1)

/-- The names of the units that a listing shows, if there is one. -/
def unitsOf (directory : Path) (extension : String) :
    Except Cause (List (String × Kind)) → Except Fault (List String)
  | .error .missing => .ok []
  | .error cause => .error (.disk .list directory cause)
  | .ok entries => .ok ((unitNames directory extension entries).mergeSort fun a b => a ≤ b)

/-- What is found depends on the listing alone. -/
theorem generatedFiles_eq (directory : Path) (extension : String) :
    generatedFiles directory extension =
      ExceptT.lift (Script.request (.list directory)) >>= fun answer =>
        Job.ofExcept ((unitsOf directory extension answer).map (·.map directory.join)) := by
  unfold generatedFiles
  refine congrArg _ (funext fun answer => ?_)
  cases answer with
  | ok entries => rfl
  | error cause => cases cause <;> rfl

theorem perform_generatedFiles (store : Store) (directory : Path) (extension : String) :
    store.perform (generatedFiles directory extension) =
      ((unitsOf directory extension (store.list directory)).map (·.map directory.join), store) := by
  rw [generatedFiles_eq, Store.perform_bind, Store.perform_lift]
  rfl

/-- Names are found in a directory, or in none if it is missing. -/
theorem unitsOf_list_eq_ok_iff {names : List String} :
    unitsOf directory extension (store.list directory) = .ok names ↔
      store.list directory = .error .missing ∧ names = [] ∨
      ∃ above, store.LeadsTo directory above ∧
        names = (unitNames directory extension
          ((store.children above).map fun (name, node) => (name, node.kind))).mergeSort
            fun a b => a ≤ b := by
  constructor
  · intro h
    cases hlist : store.list directory with
    | error cause =>
        rw [hlist] at h
        cases cause <;> cases h
        exact .inl ⟨rfl, rfl⟩
    | ok entries =>
        rw [hlist] at h
        cases h
        obtain ⟨above, hleads, rfl⟩ := Store.list_eq_ok_iff.1 hlist
        exact .inr ⟨above, hleads, rfl⟩
  · rintro (⟨hmissing, rfl⟩ | ⟨above, hleads, rfl⟩)
    · rw [hmissing]
      rfl
    · rw [Store.list_eq_ok_iff.2 ⟨above, hleads, rfl⟩]
      rfl

/-- The names that are found stand in ascending order, and they are those of the units. -/
theorem unitsOf_spec (hstore : store.Sound) {names : List String}
    (h : unitsOf directory extension (store.list directory) = .ok names) :
    names.Pairwise (· < ·) ∧
      ∀ name, name ∈ names ↔ ∃ above, HoldsUnit store directory extension name above := by
  rcases unitsOf_list_eq_ok_iff.1 h with ⟨hmissing, rfl⟩ | ⟨above, hleads, rfl⟩
  · refine ⟨.nil, fun name => ⟨nofun, ?_⟩⟩
    rintro ⟨above, hunit⟩
    rw [Store.list_eq_ok_iff.2 ⟨above, hunit.leadsTo, rfl⟩] at hmissing
    cases hmissing
  · refine ⟨Text.pairwise_lt_mergeSort (nodup_unitNames hstore.listedOnce _ _ above), fun name => ?_⟩
    rw [List.mem_mergeSort, mem_unitNames_iff hstore.listedOnce]
    constructor
    · rintro ⟨hfile, hgenerated⟩
      exact ⟨above, hleads, hfile, hgenerated⟩
    · rintro ⟨other, hunit⟩
      rw [hleads.unique hunit.leadsTo] at hunit
      exact ⟨hunit.file, hunit.generated⟩

/-! ### Removing them -/

/-- Where the names of a directory are. -/
def placesOf (above : Location) (names : List String) : List Location :=
  names.map (· :: above)

theorem mem_placesOf {location : Location} {names : List String} :
    location ∈ placesOf above names ↔ ∃ name ∈ names, name :: above = location :=
  List.mem_map

/-- Files of a directory that are all removed are what is lost. -/
theorem perform_removeFiles_eq_ok (hleads : store.LeadsTo directory above) {names : List String}
    (hnodup : names.Nodup) (hnames : ∀ name ∈ names, Path.IsName name)
    (hfiles : ∀ name ∈ names, ∃ bytes, store.node? (name :: above) = some (.file (.regular bytes)))
    (h : store.perform (removeFiles (names.map directory.join)) = (.ok (), after)) :
    after = store.without (placesOf above names) := by
  induction names generalizing store with
  | nil =>
      cases h
      exact (Store.without_nil _).symm
  | cons name rest ih =>
      rw [List.forall_mem_cons] at hnames hfiles
      obtain ⟨hnot, hnodup⟩ := List.nodup_cons.1 hnodup
      have hcons : removeFiles ((name :: rest).map directory.join) =
          Job.attempt .remove (directory.join name) (Script.request (.remove (directory.join name)))
            >>= fun _ => removeFiles (rest.map directory.join) := rfl
      rw [hcons] at h
      obtain ⟨_, found, hfirst, hrest⟩ := Store.perform_bind_eq_ok_iff.1 h
      have hremove : store.remove (directory.join name) = .ok found := by
        have hanswer := Store.perform_attempt_eq_ok_iff.1 hfirst
        have hrun : store.run (Script.request (.remove (directory.join name))) =
            store.changed (store.remove (directory.join name)) := rfl
        rw [hrun] at hanswer
        cases hresult : store.remove (directory.join name) <;> rw [hresult] at hanswer <;> cases hanswer
        rfl
      obtain ⟨entry, _, hentry, -, -, rfl⟩ := Store.remove_eq_ok_iff.1 hremove
      obtain rfl := hleads.locateEntry_join hnames.1 hentry
      -- The directory is found again without the file, and the other files in it.
      have hlost : store.LosesFiles (store.erase (name :: above)) := by
        rw [← Store.without_nil (store.erase _), Store.without_erase]
        refine Store.losesFiles_without fun location hlocation => ?_
        rw [List.mem_singleton.1 hlocation]
        exact hfiles.1
      have hothers : ∀ other ∈ rest, ∃ bytes,
          (store.erase (name :: above)).node? (other :: above) = some (.file (.regular bytes)) := by
        intro other hother
        have hne : other :: above ≠ name :: above := by
          rintro heq
          cases heq
          exact hnot hother
        rw [Store.node?_erase_of_ne hne]
        exact hfiles.2 other hother
      rw [ih (hlost.sameWays.leadsTo hleads) hnodup hnames.2 hothers hrest, Store.without_erase]
      rfl

theorem HoldsUnit.of_losesFiles (hlost : store.LosesFiles after)
    (h : HoldsUnit after directory extension name above) :
    HoldsUnit store directory extension name above := by
  obtain ⟨bytes, hfile⟩ := h.file
  refine ⟨hlost.sameWays.leadsTo_iff.1 h.leadsTo, ⟨bytes, ?_⟩, h.generated⟩
  rcases hlost.node (name :: above) with heq | ⟨hnone, -⟩
  · rw [← heq, hfile]
  · rw [hfile] at hnone
    cases hnone

/-- What cleaning finds in a directory, and where the units stood that are gone then. -/
structure Cleaned (store : Store) (directory : Path) (extension : String) (names : List String)
    (gone : List Location) : Prop where
  found : unitsOf directory extension (store.list directory) = .ok names
  mem_gone_iff : ∀ location, location ∈ gone ↔
    ∃ name above, location = name :: above ∧ HoldsUnit store directory extension name above

theorem cleaned_of_perform (hstore : store.Sound) {found : Store} {paths : List Path}
    (hfound : store.perform (generatedFiles directory extension) = (.ok paths, found))
    (hremoved : found.perform (removeFiles paths) = (.ok (), after)) :
    ∃ names gone, paths = names.map directory.join ∧ Cleaned store directory extension names gone ∧
      after = store.without gone := by
  rw [perform_generatedFiles, Prod.mk.injEq] at hfound
  obtain ⟨hpaths, rfl⟩ := hfound
  obtain ⟨names, hnames, rfl⟩ := Except.map_eq_ok_iff.1 hpaths
  obtain ⟨hascending, hmem⟩ := unitsOf_spec hstore hnames
  rcases unitsOf_list_eq_ok_iff.1 hnames with ⟨-, rfl⟩ | ⟨above, hleads, -⟩
  · refine ⟨[], [], rfl, ⟨hnames, fun location => ⟨nofun, ?_⟩⟩, ?_⟩
    · rintro ⟨name, above, -, hunit⟩
      exact absurd ((hmem name).2 ⟨above, hunit⟩) List.not_mem_nil
    · cases hremoved
      exact (Store.without_nil _).symm
  · have hunits : ∀ name ∈ names, HoldsUnit store directory extension name above := by
      intro name hname
      obtain ⟨other, hunit⟩ := (hmem name).1 hname
      rwa [hleads.unique hunit.leadsTo] at hunit
    refine ⟨names, placesOf above names, rfl, ⟨hnames, fun location => ?_⟩, ?_⟩
    · rw [mem_placesOf]
      constructor
      · rintro ⟨name, hname, rfl⟩
        exact ⟨name, above, rfl, hunits name hname⟩
      · rintro ⟨name, other, rfl, hunit⟩
        obtain rfl := hleads.unique hunit.leadsTo
        exact ⟨name, (hmem name).2 ⟨_, hunit⟩, rfl⟩
    · exact perform_removeFiles_eq_ok hleads (hascending.imp String.ne_of_lt)
        (fun name hname => (hunits name hname).isName hstore)
        (fun name hname => (hunits name hname).file) hremoved

section

variable {names : List String} {gone : List Location} (h : Cleaned store directory extension names gone)

include h

theorem Cleaned.losesFiles : store.LosesFiles (store.without gone) := by
  refine Store.losesFiles_without fun location hlocation => ?_
  obtain ⟨name, above, rfl, hunit⟩ := (h.mem_gone_iff location).1 hlocation
  exact hunit.file

/-- The units with another extension stay, in whatever directory. -/
theorem Cleaned.holdsUnit_other_iff (hstore : store.Sound) {directory' : Path} {extension' : String}
    (hne : extension' ≠ extension) :
    HoldsUnit (store.without gone) directory' extension' name above ↔
      HoldsUnit store directory' extension' name above := by
  refine ⟨fun hunit => hunit.of_losesFiles h.losesFiles, fun hunit => ?_⟩
  have hmem : name :: above ∉ gone := by
    intro hmem
    obtain ⟨_, _, heq, hgone⟩ := (h.mem_gone_iff _).1 hmem
    cases heq
    exact hne (eq_of_isGenerated_join (hunit.isName hstore) hunit.generated hgone.generated)
  refine ⟨h.losesFiles.sameWays.leadsTo hunit.leadsTo, ?_, hunit.generated⟩
  rw [Store.node?_without_of_not_mem hmem]
  exact hunit.file

theorem Cleaned.not_holdsUnit : ¬ HoldsUnit (store.without gone) directory extension name above := by
  intro hunit
  have hmem := (h.mem_gone_iff _).2 ⟨name, above, rfl, hunit.of_losesFiles h.losesFiles⟩
  obtain ⟨bytes, hfile⟩ := hunit.file
  rw [Store.node?_without_of_mem (List.cons_ne_nil _ _) hmem] at hfile
  cases hfile

/-- Where no units are left, none are found again. -/
theorem Cleaned.unitsOf_of_losesFiles (hafter : after.Sound) (hlost : store.LosesFiles after)
    (hnone : ∀ name above, ¬ HoldsUnit after directory extension name above) :
    unitsOf directory extension (after.list directory) = .ok [] := by
  rcases unitsOf_list_eq_ok_iff.1 h.found with ⟨hmissing, -⟩ | ⟨above, hleads, -⟩
  · rw [hlost.list_eq_missing hmissing]
    rfl
  · have hfound : unitsOf directory extension (after.list directory) = .ok _ :=
      unitsOf_list_eq_ok_iff.2 (.inr ⟨above, hlost.sameWays.leadsTo hleads, rfl⟩)
    rw [hfound, Except.ok.injEq, List.eq_nil_iff_forall_not_mem]
    intro name hname
    obtain ⟨other, hunit⟩ := ((unitsOf_spec hafter hfound).2 name).1 hname
    exact hnone name other hunit

end

/-! ### Cleaning -/

/-- A unit of one of the directories for units stands at the location. -/
def IsOutputUnit (store : Store) (layout : Layout) (location : Location) : Prop :=
  ∃ (tree : UnitTree) (name : String) (above : Location), location = name :: above ∧
    HoldsUnit store (tree.directory layout) tree.extension name above

/-- Where there are no units, nothing is done. -/
theorem perform_clean_of_none {layout : Layout} (h : ∀ tree : UnitTree,
    unitsOf (tree.directory layout) tree.extension (store.list (tree.directory layout)) = .ok []) :
    store.perform (clean layout) = (.ok [], store) := by
  have hfound (tree : UnitTree) :
      store.perform (generatedFiles (tree.directory layout) tree.extension) = (.ok [], store) := by
    rw [perform_generatedFiles, h tree]
    rfl
  have hinterfaces : store.perform (generatedFiles layout.includeDirectory "h") = (.ok [], store) :=
    hfound .interfaces
  have himplementations :
      store.perform (generatedFiles layout.sourceDirectory "cpp") = (.ok [], store) :=
    hfound .implementations
  have hnothing : store.perform (removeFiles []) = (.ok (), store) := rfl
  simp only [clean, Store.perform_bind, hinterfaces, hnothing, himplementations, Store.perform_pure,
    List.append_nil]

/-- Cleaning that succeeds has cleaned one directory and then the other. -/
theorem cleaned_of_perform_clean (hstore : store.Sound) {layout : Layout} {removed : List Path}
    (h : store.perform (clean layout) = (.ok removed, after)) :
    ∃ interfaces implementations gone gone', removed =
        interfaces.map layout.includeDirectory.join ++ implementations.map layout.sourceDirectory.join ∧
      Cleaned store layout.includeDirectory "h" interfaces gone ∧
      Cleaned (store.without gone) layout.sourceDirectory "cpp" implementations gone' ∧
      after = (store.without gone).without gone' := by
  obtain ⟨_, _, hfound, h⟩ := Store.perform_bind_eq_ok_iff.1 h
  obtain ⟨_, _, hremoved, h⟩ := Store.perform_bind_eq_ok_iff.1 h
  obtain ⟨_, _, hfound', h⟩ := Store.perform_bind_eq_ok_iff.1 h
  obtain ⟨_, _, hremoved', h⟩ := Store.perform_bind_eq_ok_iff.1 h
  cases h
  obtain ⟨interfaces, gone, rfl, hcleaned, rfl⟩ := cleaned_of_perform hstore hfound hremoved
  obtain ⟨implementations, gone', rfl, hcleaned', rfl⟩ :=
    cleaned_of_perform (hstore.without gone) hfound' hremoved'
  exact ⟨interfaces, implementations, gone, gone', rfl, hcleaned, hcleaned', rfl⟩

section

variable {layout : Layout} {interfaces implementations : List String} {gone gone' : List Location}
  (hstore : store.Sound) (h : Cleaned store layout.includeDirectory "h" interfaces gone)
  (h' : Cleaned (store.without gone) layout.sourceDirectory "cpp" implementations gone')

include hstore h h'

/-- What is gone are the units of both directories as they were at first. -/
theorem mem_append_gone_iff (location : Location) :
    location ∈ gone ++ gone' ↔ IsOutputUnit store layout location := by
  rw [List.mem_append, h.mem_gone_iff, h'.mem_gone_iff]
  simp only [h.holdsUnit_other_iff hstore (show "cpp" ≠ "h" by decide)]
  constructor
  · rintro (⟨name, above, rfl, hunit⟩ | ⟨name, above, rfl, hunit⟩)
    · exact ⟨.interfaces, name, above, rfl, hunit⟩
    · exact ⟨.implementations, name, above, rfl, hunit⟩
  · rintro ⟨tree, name, above, rfl, hunit⟩
    cases tree with
    | interfaces => exact .inl ⟨name, above, rfl, hunit⟩
    | implementations => exact .inr ⟨name, above, rfl, hunit⟩

/-- Nothing is left for a second cleaning. -/
theorem perform_clean_again : ((store.without gone).without gone').perform (clean layout) =
    (.ok [], (store.without gone).without gone') := by
  have hafter := (hstore.without gone).without gone'
  have hlost := h'.losesFiles
  refine perform_clean_of_none fun tree => ?_
  cases tree with
  | interfaces =>
      exact h.unitsOf_of_losesFiles hafter (h.losesFiles.trans hlost) fun name above hunit =>
        h.not_holdsUnit (hunit.of_losesFiles hlost)
  | implementations =>
      exact h'.unitsOf_of_losesFiles hafter hlost fun name above => h'.not_holdsUnit

end

/-- Cleaning removes exactly the generated units. Take any store like a file system, with links where
there may be any, and any layout. A directory for units that is missing counts as empty. If cleaning
succeeds, then it returns the paths of the regular files directly in the directory for interfaces that
have the name of a generated unit with the extension `h`, in the order of their names, and behind them
those of the other directory with the extension `cpp`. They are gone, and whatever else stood anywhere
stands there still. A second cleaning succeeds, returns nothing and changes nothing. -/
theorem clean_removes_exactly_units (hstore : store.Sound) (layout : Layout) :
    (∀ tree : UnitTree, store.list (tree.directory layout) = .error .missing →
      store.perform (generatedFiles (tree.directory layout) tree.extension) = (.ok [], store)) ∧
    ∀ removed after, store.perform (clean layout) = (.ok removed, after) →
      ∃ interfaces implementations : List String,
        removed = interfaces.map layout.includeDirectory.join ++
          implementations.map layout.sourceDirectory.join ∧
        interfaces.Pairwise (· < ·) ∧
        (∀ name, name ∈ interfaces ↔
          ∃ above, HoldsUnit store layout.includeDirectory "h" name above) ∧
        implementations.Pairwise (· < ·) ∧
        (∀ name, name ∈ implementations ↔
          ∃ above, HoldsUnit store layout.sourceDirectory "cpp" name above) ∧
        after.home = store.home ∧
        (∀ location, IsOutputUnit store layout location → after.node? location = none) ∧
        (∀ location, ¬ IsOutputUnit store layout location →
          after.node? location = store.node? location) ∧
        after.perform (clean layout) = (.ok [], after) := by
  constructor
  · intro tree hmissing
    rw [perform_generatedFiles, hmissing]
    rfl
  intro removed after hclean
  obtain ⟨interfaces, implementations, gone, gone', rfl, h, h', rfl⟩ :=
    cleaned_of_perform_clean hstore hclean
  obtain ⟨hascending, hmem⟩ := unitsOf_spec hstore h.found
  obtain ⟨hascending', hmem'⟩ := unitsOf_spec (hstore.without gone) h'.found
  simp only [h.holdsUnit_other_iff hstore (show "cpp" ≠ "h" by decide)] at hmem'
  have hgone := mem_append_gone_iff hstore h h'
  refine ⟨interfaces, implementations, rfl, hascending, hmem, hascending', hmem', rfl, ?_, ?_,
    perform_clean_again hstore h h'⟩
  · rintro location hunit
    obtain ⟨_, name, above, rfl, -⟩ := id hunit
    rw [Store.without_without]
    exact Store.node?_without_of_mem (List.cons_ne_nil _ _) ((hgone _).2 hunit)
  · intro location hnot
    rw [Store.without_without]
    exact Store.node?_without_of_not_mem (mt (hgone location).1 hnot)

/-- A home in which the directory for interfaces is reached over a link. There are two units in it,
and much else that has such a name: a unit of the other kind, a link, a directory and a special file. The
directory for implementations is missing. -/
def cluttered : Store where
  home := ["home"]
  nodes := [
    (["home"], .directory),
    (["include", "home"], .link "out"),
    (["out", "home"], .directory),
    (["GeneratedIfNet.h", "out", "home"], .file (.regular ByteArray.empty)),
    (["GeneratedArrayNet.h", "out", "home"], .file (.regular ByteArray.empty)),
    (["GeneratedArrayNet.cpp", "out", "home"], .file (.regular ByteArray.empty)),
    (["GeneratedSwitchNet.h", "out", "home"], .link "GeneratedIfNet.h"),
    (["GeneratedIfOld.h", "out", "home"], .directory),
    (["GeneratedSwitchOld.h", "out", "home"], .file .special),
    (["Token.h", "out", "home"], .file (.regular ByteArray.empty))]

/-- The two units are removed, the one that comes first by its name before the other. -/
theorem clean_cluttered : cluttered.Sound ∧ ∃ after,
    cluttered.perform (clean ⟨⟨""⟩, ⟨"include"⟩, ⟨"src"⟩⟩) =
      (.ok [⟨"include/GeneratedArrayNet.h"⟩, ⟨"include/GeneratedIfNet.h"⟩], after) ∧
    after.node? ["GeneratedIfNet.h", "out", "home"] = none ∧
    after.node? ["GeneratedIfOld.h", "out", "home"] = some .directory ∧
    after.node? ["GeneratedSwitchOld.h", "out", "home"] = some (.file .special) ∧
    after.perform (clean ⟨⟨""⟩, ⟨"include"⟩, ⟨"src"⟩⟩) = (.ok [], after) := by
  have hsound : cluttered.Sound := by
    refine ⟨?_, Store.isName_of_nodes (by decide +kernel)⟩
    unfold Store.ListedOnce
    decide
  have hfound : unitsOf ⟨"include"⟩ "h" (cluttered.list ⟨"include"⟩) =
      .ok ["GeneratedArrayNet.h", "GeneratedIfNet.h"] := by
    have hlist : cluttered.list ⟨"include"⟩ = .ok [("GeneratedIfNet.h", .file),
        ("GeneratedArrayNet.h", .file), ("GeneratedArrayNet.cpp", .file),
        ("GeneratedSwitchNet.h", .link), ("GeneratedIfOld.h", .directory),
        ("GeneratedSwitchOld.h", .special), ("Token.h", .file)] := by rfl
    have hnames : unitNames ⟨"include"⟩ "h" [("GeneratedIfNet.h", .file),
        ("GeneratedArrayNet.h", .file), ("GeneratedArrayNet.cpp", .file),
        ("GeneratedSwitchNet.h", .link), ("GeneratedIfOld.h", .directory),
        ("GeneratedSwitchOld.h", .special), ("Token.h", .file)] =
          ["GeneratedIfNet.h", "GeneratedArrayNet.h"] := by decide +kernel
    rw [hlist, unitsOf, hnames, Text.mergeSort_eq_of_perm (.swap _ _ []),
      List.mergeSort_of_pairwise (by decide +kernel)]
  have hinterfaces : cluttered.perform (generatedFiles ⟨"include"⟩ "h") =
      (.ok [⟨"include/GeneratedArrayNet.h"⟩, ⟨"include/GeneratedIfNet.h"⟩], cluttered) := by
    rw [perform_generatedFiles, hfound]
    rfl
  let after := cluttered.without
    [["GeneratedArrayNet.h", "out", "home"], ["GeneratedIfNet.h", "out", "home"]]
  have hremoved : cluttered.perform
      (removeFiles [⟨"include/GeneratedArrayNet.h"⟩, ⟨"include/GeneratedIfNet.h"⟩]) =
        (.ok (), after) := by rfl
  have himplementations : after.perform (generatedFiles ⟨"src"⟩ "cpp") = (.ok [], after) := by rfl
  have hnothing : after.perform (removeFiles []) = (.ok (), after) := rfl
  have hclean : cluttered.perform (clean ⟨⟨""⟩, ⟨"include"⟩, ⟨"src"⟩⟩) =
      (.ok [⟨"include/GeneratedArrayNet.h"⟩, ⟨"include/GeneratedIfNet.h"⟩], after) := by
    simp only [clean, Store.perform_bind, hinterfaces, hremoved, himplementations, hnothing,
      Store.perform_pure, List.append_nil]
  obtain ⟨-, hall⟩ := clean_removes_exactly_units hsound ⟨⟨""⟩, ⟨"include"⟩, ⟨"src"⟩⟩
  obtain ⟨_, _, -, -, -, -, -, -, -, -, hagain⟩ := hall _ _ hclean
  exact ⟨hsound, after, hclean, by rfl, by rfl, by rfl, hagain⟩

end Switchboard.Output
