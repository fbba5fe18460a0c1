import Switchboard.Output.Write
import Switchboard.Proofs.Disk.Requests
import Switchboard.Proofs.Disk.Ways

/-!
Making the directory of a unit. Whatever stands in the store, no request is made for anything but the
directory and the paths above it, and of these only names on the way of the directory are made
(`Opened`). If the directory is there, nothing is made at all.
-/

namespace Switchboard

open Disk

/-! ### A directory that is there -/

namespace Disk.Store

variable {store store' : Store} {path : Path} {location target : Location}

/-- Where a path has been followed behind some pieces there is a directory, if pieces are left. -/
theorem advance_append {pieces more : List String} (hmore : more ≠ [])
    (h : store.advance location (pieces ++ more) = .ok (.node target)) :
    ∃ between, store.advance location (pieces ++ ["."]) = .ok (.node between) ∧
      store.node? between = some .directory ∧ store.advance between more = .ok (.node target) := by
  induction pieces generalizing location with
  | nil =>
      obtain ⟨piece, rest, rfl⟩ := List.exists_cons_of_ne_nil hmore
      have hdirectory := (advance_cases h).1
      refine ⟨location, ?_, hdirectory, h⟩
      rw [List.nil_append, advance_of_passes hdirectory (.idle (.inr rfl))]
      rfl
  | cons piece rest ih =>
      obtain ⟨hdirectory, ⟨hpasses, hrest⟩ | ⟨-, hend, -⟩ | ⟨link, -, hend⟩⟩ := advance_cases h
      · rw [List.cons_append, advance_of_passes hdirectory hpasses]
        exact ih hrest
      · cases hend
      · cases hend

/-- What leads to a directory cannot be made. -/
theorem makeDirectory_of_hasDirectory (hlinkless : store.Linkless) (h : store.HasDirectory path) :
    store.makeDirectory path = .error .taken := by
  obtain ⟨hcheck, hadvance⟩ := (locate_eq_ok_iff hlinkless).1 h.1
  have hentry : store.locateEntry path = .error .taken ∨
      ∃ above name node, store.locateEntry path = .ok (above, name) ∧
        store.node? (name :: above) = some node := by
    unfold locateEntry
    rw [hcheck]
    cases htrim : trimPieces (piecesOf path.text).reverse with
    | nil => exact .inl rfl
    | cons name above =>
        obtain ⟨hname, empty, hreverse, -⟩ := trimPieces_eq_cons htrim
        rw [← List.reverse_reverse (piecesOf path.text), hreverse, List.reverse_append,
          List.reverse_cons, List.append_assoc] at hadvance
        obtain ⟨between, hbetween, -, hlast⟩ := advance_append (by simp) hadvance
        simp only [bind, Except.bind, follow_eq_advance hlinkless, hbetween]
        obtain ⟨-, ⟨hpasses, -⟩ | ⟨-, hend, -⟩ | ⟨link, -, hend⟩⟩ := advance_cases hlast
        · cases hpasses with
          | idle hidle => exact .inl (if_pos (.inl (hidle.resolve_left hname)))
          | up => exact .inl (if_pos (.inr rfl))
          | @name _ node hnot hup hlimit hnode hlink =>
              rw [not_or] at hnot
              refine .inr ⟨between, name, node, ?_, hnode⟩
              rw [if_neg (not_or.2 ⟨hnot.2, hup⟩), if_neg (Nat.not_lt.2 hlimit)]
        · cases hend
        · cases hend
  rcases hentry with hentry | ⟨above, name, node, hentry, hnode⟩
  · rw [makeDirectory, hentry]
    rfl
  · rw [makeDirectory, hentry]
    simp only [bind, Except.bind, hnode]

/-- What can be made is entered from its directory. -/
theorem enters_of_makeDirectory (hlinkless : store.Linkless)
    (h : store.makeDirectory path = .ok store') :
    ∃ above name, store.place path = name :: above ∧ store.Enters path above name := by
  obtain ⟨⟨above, name⟩, hentry, -⟩ := Except.bind_eq_ok_iff.1 h
  exact ⟨above, name, place_of_locateEntry hlinkless hentry, enters_of_locateEntry hlinkless hentry⟩

theorem run_inspect_of_hasDirectory (h : store.HasDirectory path) :
    store.run (Script.request (.inspect path) : Script (Except Cause Kind)) =
      (.ok .directory, store) := by
  have hinspect : store.inspect path = .ok .directory := by
    simp [inspect, h.1, h.2, bind, Except.bind, Node.kind]
  rw [← hinspect]
  rfl

end Disk.Store

namespace Output

/-! ### Requests -/

/-- Only directories that have to be there are inspected and made. -/
theorem keeps_ensureDirectories {asks : Request → Prop} {directories : List Path}
    (h : ∀ directory ∈ directories, asks (.inspect directory) ∧ asks (.makeDirectory directory)) :
    (ensureDirectories directories).Keeps asks fun _ => True := by
  have haccept {directory : Path} (hinspect : asks (.inspect directory))
      (answer : Answer (.makeDirectory directory)) :
      (acceptDirectory directory answer).Keeps asks fun _ => True := by
    cases answer with
    | ok made => exact .done trivial
    | error cause =>
        refine (Script.keeps_request hinspect).bind fun answer _ => ?_
        split <;> exact .done trivial
  induction directories with
  | nil => exact .done trivial
  | cons directory above ih =>
      obtain ⟨⟨hinspect, hmake⟩, habove⟩ := List.forall_mem_cons.1 h
      refine (Script.keeps_request hmake).bind fun answer _ => ?_
      split
      · refine (ih habove).bind fun result _ => ?_
        split
        · exact .done trivial
        · exact (Script.keeps_request hmake).bind fun answer _ => haccept hinspect answer
      · exact haccept hinspect answer

/-! ### What is made -/

/-- Directories have been made on the way of the path, and nothing else has happened. -/
structure Opened (store : Store) (path : Path) (found : Store) : Prop where
  home : found.home = store.home
  nodes : ∀ location, found.node? location = store.node? location ∨
    store.node? location = none ∧ found.node? location = some .directory ∧
      ∃ above name, location = name :: above ∧ store.Enters path above name

variable {store found : Store} {path : Path}

/-- One more directory is made, for the path or a path above it. -/
theorem Opened.makeDirectory (hlinkless : found.Linkless) (h : Opened store path found) {upper : Path}
    (hupper : upper ∈ path.ascent) {made : Store} (hmake : found.makeDirectory upper = .ok made) :
    Opened store path made := by
  obtain ⟨above, name, hplace, henters⟩ := Store.enters_of_makeDirectory hlinkless hmake
  obtain ⟨hne, hnone, rfl⟩ := Store.makeDirectory_eq_ok hlinkless hmake
  refine ⟨h.home, fun location => ?_⟩
  rw [Store.node?_put hne]
  split
  · next heq =>
    have hbefore : store.node? location = none := by
      rcases h.nodes location with hsame | ⟨hnone', -⟩
      · rw [← hsame, heq, hnone]
      · exact hnone'
    refine .inr ⟨hbefore, rfl, above, name, heq.trans hplace, ?_⟩
    exact Store.enters_of_mem_ascent hupper ((Store.enters_iff_of_home h.home).1 henters)
  · exact h.nodes location

theorem opened_ensureDirectory (hlinkless : store.Linkless) (path : Path) :
    Opened store path (store.run (ensureDirectory path)).2 := by
  let asks (request : Request) : Prop :=
    ∃ upper ∈ path.ascent, request = .inspect upper ∨ request = .makeDirectory upper
  have hkeeps : (ensureDirectory path).Keeps asks fun _ => True :=
    keeps_ensureDirectories fun upper hupper =>
      ⟨⟨upper, hupper, .inl rfl⟩, upper, hupper, .inr rfl⟩
  have hstep : ∀ request, asks request → ∀ found, found.Linkless ∧ Opened store path found →
      ((Store.answer request).run found).2.Linkless ∧
        Opened store path ((Store.answer request).run found).2 := by
    rintro request ⟨upper, hupper, rfl | rfl⟩ found ⟨hfound, hopened⟩
    · exact ⟨hfound, hopened⟩
    · refine ⟨(Store.continues_answer hfound _).linkless, ?_⟩
      rw [show (Store.answer (.makeDirectory upper)).run found =
        found.changed (found.makeDirectory upper) from rfl]
      cases hmake : found.makeDirectory upper with
      | ok made => exact hopened.makeDirectory hfound hupper hmake
      | error cause => exact hopened
  exact (hkeeps.run_invariant hstep ⟨hlinkless, rfl, fun _ => .inl rfl⟩).2

/-- A directory that is there is not made again. -/
theorem run_ensureDirectory_of_hasDirectory (hlinkless : store.Linkless) {base : Path}
    (h : store.HasDirectory base.opened) :
    store.run (ensureDirectory base.opened) = (.ok (), store) := by
  unfold ensureDirectory
  rcases base.ascent_opened with hascent | ⟨above, hascent⟩
  · rw [hascent]
    rfl
  · have hmake : store.run (Script.request (.makeDirectory base.opened) : Script (Except Cause Unit)) =
        (.error .taken, store) := by
      rw [show store.run (Script.request (.makeDirectory base.opened)) =
        store.changed (store.makeDirectory base.opened) from rfl,
        Store.makeDirectory_of_hasDirectory hlinkless h]
      rfl
    rw [hascent, ensureDirectories, Store.run_bind, hmake]
    simp only [acceptDirectory]
    rw [Store.run_bind, Store.run_inspect_of_hasDirectory h]
    rfl

end Output

end Switchboard
