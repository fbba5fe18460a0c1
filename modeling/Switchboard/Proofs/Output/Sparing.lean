import Switchboard.Proofs.Output.Rewriting

/-!
The units of one layout spare each other. The directories for interfaces and for implementations are
written alike but for one name, which is not that of a temporary file. So where one of them leads, the
other one enters only what the first one enters as well, or that one name, unless both lead to one
place.
-/

namespace Switchboard.Output

open Disk

namespace UnitTree

variable {store : Store} {root : Path} {target : Target} {tree other : UnitTree} {above : Location}
  {name : String}

/-- Where the tops of the trees lie. -/
def rootOf (store : Store) (root : Path) : Location :=
  (Store.start store.home root.text).walk (root.front.map String.ofList)

/-- The pieces that lead from the top of a tree to its directory. -/
def inner (target : Target) : List String :=
  (Path.front ⟨target.includePrefix⟩).map String.ofList

theorem front_directory (hrel : target.includePrefix.toList.head? ≠ some '/') (tree : UnitTree) :
    (tree.directory (Layout.of root target)).front.map String.ofList =
      root.front.map String.ofList ++ tree.top :: inner target := by
  have htop : Path.front ⟨tree.top⟩ = [tree.top.toList] := by cases tree <;> decide
  rw [directory_of, Path.front_join _ hrel, Path.front_join root tree.isName_top.head?_ne, htop]
  simp [inner]

theorem start_directory (hrel : target.includePrefix.toList.head? ≠ some '/') (tree : UnitTree) :
    Store.start store.home (tree.directory (Layout.of root target)).text =
      Store.start store.home root.text := by
  rw [directory_of, Store.start_join _ _ hrel, Store.start_join _ _ tree.isName_top.head?_ne]

theorem place_eq_walk_inner (hrel : target.includePrefix.toList.head? ≠ some '/') (tree : UnitTree) :
    store.place (tree.directory (Layout.of root target)) =
      Location.walk (tree.top :: rootOf store root) (inner target) := by
  rw [Store.place_eq_walk_front, start_directory hrel, front_directory hrel, Location.walk_append,
    Location.walk_cons, Location.enter_of_isName tree.isName_top]
  rfl

theorem enters_directory_iff (hrel : target.includePrefix.toList.head? ≠ some '/') :
    store.Enters (tree.directory (Layout.of root target)).opened above name ↔
      (Store.start store.home root.text).Enters (root.front.map String.ofList) above name ∨
        tree.top = name ∧ rootOf store root = above ∨
        Location.Enters (tree.top :: rootOf store root) (inner target) above name := by
  rw [Store.enters_opened_iff, start_directory hrel, front_directory hrel, Location.enters_append_iff,
    Location.enters_cons_iff, Location.enter_of_isName tree.isName_top]
  refine or_congr_right (or_congr_left ⟨fun h => ⟨h.1, h.2.2⟩, fun h => ⟨h.1, ?_, h.2⟩⟩)
  exact h.1 ▸ tree.isName_top

/-- Where one tree has its directory, the directory of another one enters nothing that the first one
does not enter, but the top of its own tree. -/
theorem enters_of_enters_other
    (h : store.Enters (other.directory (Layout.of root target)).opened
      (store.place (tree.directory (Layout.of root target))) name) (hname : name ≠ other.top) :
    store.Enters (tree.directory (Layout.of root target)).opened
        (store.place (tree.directory (Layout.of root target))) name ∨
      store.place (other.directory (Layout.of root target)) =
        store.place (tree.directory (Layout.of root target)) := by
  by_cases hrel : target.includePrefix.toList.head? = some '/'
  · -- An absolute directory is the same for both.
    have habsolute (tree : UnitTree) :
        tree.directory (Layout.of root target) = ⟨target.includePrefix⟩ := by
      rw [directory_of, Path.join, if_pos hrel]
    rw [habsolute, habsolute]
    exact .inr rfl
  · rw [enters_directory_iff hrel, place_eq_walk_inner hrel] at h ⊢
    rw [place_eq_walk_inner hrel]
    rcases h with hroot | ⟨htop, -⟩ | hinner
    · exact .inl (.inl hroot)
    · exact absurd htop.symm hname
    · by_cases heq : other = tree
      · rw [heq] at hinner
        exact .inl (.inr (.inr hinner))
      · have hne : other.top ≠ tree.top := by
          revert heq
          cases other <;> cases tree <;> decide
        exact (Location.enters_twin hne hinner).imp_left fun h => .inr (.inr h)

theorem top_ne_temporaryName (tree : UnitTree) (number : Nat) :
    tree.top ≠ Store.temporaryName number := by
  intro h
  have hhead := congrArg (·.toList.head?) h
  cases tree <;> simp [top, Store.temporaryName] at hhead

end UnitTree

/-- Units of one layout spare each other if artifacts of one class have the same units. -/
theorem spares_of_layout {root : Path} {target : Target} {indent : Indent} {artifacts : List Artifact}
    (hemitted : ∀ artifact ∈ artifacts, IsEmitted artifact)
    (hclass : ∀ artifact ∈ artifacts, ∀ artifact' ∈ artifacts,
      artifact.className = artifact'.className → artifact = artifact') {unit other : UnitFile}
    (hunit : unit ∈ UnitFile.ofArtifacts (Layout.of root target) indent artifacts)
    (hother : other ∈ UnitFile.ofArtifacts (Layout.of root target) indent artifacts) (store : Store) :
    Spares store other unit := by
  have hname := UnitFile.isUnitName hemitted hunit
  have hname' := UnitFile.isUnitName hemitted hother
  have hdirectory : unit.path.directory = unit.directory.opened :=
    unit.directory.directory_join hname.isName
  have hdirectory' : other.path.directory = other.directory.opened :=
    other.directory.directory_join hname'.isName
  refine ⟨fun number => ?_, fun hplace => ?_⟩
  · rw [hdirectory, hdirectory', Store.place_opened, Store.place_opened]
    obtain ⟨artifact, -, tree, rfl⟩ := UnitFile.mem_ofArtifacts.1 hunit
    obtain ⟨artifact', -, tree', rfl⟩ := UnitFile.mem_ofArtifacts.1 hother
    exact fun h => UnitTree.enters_of_enters_other h (tree'.top_ne_temporaryName number).symm
  · rw [UnitFile.place_path hname, UnitFile.place_path hname', List.cons.injEq] at hplace
    obtain ⟨artifact, hmem, tree, rfl⟩ := UnitFile.mem_ofArtifacts.1 hunit
    obtain ⟨artifact', hmem', tree', rfl⟩ := UnitFile.mem_ofArtifacts.1 hother
    obtain rfl := UnitTree.eq_of_fileName_eq hplace.1
    rw [hclass artifact hmem artifact' hmem' (tree'.fileName_injective hplace.1).symm]

variable {root : Path} {target : Target} {indent : Indent} {artifacts : List Artifact}
  {store after : Store} {written : List Written}

/-- Units that have been written can be written again. -/
theorem ready_of_writeArtifacts (hemitted : ∀ artifact ∈ artifacts, IsEmitted artifact)
    (hclass : ∀ artifact ∈ artifacts, ∀ artifact' ∈ artifacts,
      artifact.className = artifact'.className → artifact = artifact') (hlinkless : store.Linkless)
    (hrun : store.perform (writeArtifacts (Layout.of root target) indent artifacts) =
      (.ok written, after)) :
    ∀ unit ∈ UnitFile.ofArtifacts (Layout.of root target) indent artifacts, Ready after unit :=
  ready_of_writes hlinkless (fun _ => UnitFile.isUnitName hemitted)
    (fun _ hunit _ hother => spares_of_layout hemitted hclass hunit hother store)
    (List.forall_mem_nil _) (perform_writeArtifacts_eq_ok_iff.1 hrun).2

/-- Writing artifacts again succeeds with the same result and changes nothing. -/
theorem writeArtifacts_again (hemitted : ∀ artifact ∈ artifacts, IsEmitted artifact)
    (hclass : ∀ artifact ∈ artifacts, ∀ artifact' ∈ artifacts,
      artifact.className = artifact'.className → artifact = artifact') (hlinkless : store.Linkless)
    (hrun : store.perform (writeArtifacts (Layout.of root target) indent artifacts) =
      (.ok written, after)) :
    ∃ again, after.perform (writeArtifacts (Layout.of root target) indent artifacts) =
      (.ok written, again) ∧ after.SameTree again := by
  have hready := ready_of_writeArtifacts hemitted hclass hlinkless hrun
  have hafter := (Store.continues_perform hlinkless hrun).linkless
  obtain ⟨again, hagain, hsame⟩ :=
    writes_of_ready hafter (fun _ => UnitFile.isUnitName hemitted) hready
  obtain ⟨rfl, -⟩ := perform_writeArtifacts_eq_ok_iff.1 hrun
  exact ⟨again, perform_writeArtifacts_eq_ok_iff.2 ⟨rfl, hagain⟩, hsame⟩

end Switchboard.Output
