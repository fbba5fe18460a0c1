import Mathlib.Data.List.Induction
import Switchboard.Proofs.Disk.Runs
import Switchboard.Proofs.Output.Directories
import Switchboard.Proofs.Output.Units

/-!
Units are replaced one after the other, each at once. A run that writes units can be stopped anywhere
and any of its requests can be refused; what the store looks like is always told by the units that
have been put in place (`contents`) and by at most one temporary file. `Stage` says this of a store.
Every request of a unit leads from stage to stage: nothing but a rename adds a unit to those in place,
and it takes the temporary file away with it.
-/

namespace Switchboard.Output

open Disk

/-! ### Stages -/

/-- What is at a location when some units have been put in place, one after the other. -/
def contents (before : Store) (placed : List UnitFile) (location : Location) : Option ByteArray :=
  placed.foldl (fun content unit =>
    if before.place unit.path = location then some unit.text.toUTF8 else content)
    (before.file? location)

section

variable (before : Store) (placed : List UnitFile) {location : Location}

theorem contents_concat (unit : UnitFile) (location : Location) :
    contents before (placed ++ [unit]) location =
      if before.place unit.path = location then some unit.text.toUTF8
      else contents before placed location := by
  simp [contents]

theorem contents_of_forall_ne (h : ∀ unit ∈ placed, before.place unit.path ≠ location) :
    contents before placed location = before.file? location := by
  induction placed using List.reverseRecOn with
  | nil => rfl
  | append_singleton placed unit ih =>
      rw [contents_concat, if_neg (h unit (by simp))]
      exact ih fun other hother => h other (List.mem_append_left _ hother)

/-- Where a unit has been put there is a unit, if not the same one. -/
theorem contents_of_mem {unit : UnitFile} (h : unit ∈ placed) :
    ∃ other ∈ placed, before.place other.path = before.place unit.path ∧
      contents before placed (before.place unit.path) = some other.text.toUTF8 := by
  induction placed using List.reverseRecOn with
  | nil => cases h
  | append_singleton placed last ih =>
      rw [contents_concat]
      split
      · next hplace => exact ⟨last, by simp, hplace, rfl⟩
      · next hplace =>
        rcases List.mem_append.1 h with h | h
        · obtain ⟨other, hmem, hother⟩ := ih h
          exact ⟨other, List.mem_append_left _ hmem, hother⟩
        · exact absurd (List.mem_singleton.1 h ▸ rfl) hplace

/-- A unit stays where it was put until another one is put there. -/
theorem contents_of_later {unit : UnitFile} {early late : List UnitFile}
    (hlate : ∀ other ∈ late, before.place other.path = before.place unit.path →
      other.text = unit.text) :
    contents before (early ++ unit :: late) (before.place unit.path) = some unit.text.toUTF8 := by
  induction late using List.reverseRecOn with
  | nil => rw [contents_concat, if_pos rfl]
  | append_singleton late other ih =>
      rw [← List.cons_append, ← List.append_assoc, contents_concat]
      split
      · next hplace => rw [hlate other (by simp) hplace]
      · exact ih fun another hmem => hlate another (List.mem_append_left _ hmem)

end

/-- The store when some units have been put in place and the next one may stand in a temporary
file. -/
structure Stage (before : Store) (placed : List UnitFile) (temporary : Option Location)
    (after : Store) : Prop where
  continues : before.Continues after
  files : ∀ location, temporary ≠ some location →
    after.file? location = contents before placed location
  fresh : ∀ location, temporary = some location → contents before placed location = none ∧
    ∃ name above, location = name :: above ∧ name.toList.head? = some '.'
  reachable : ∀ unit ∈ placed, ∃ entry, after.locateEntry unit.path = .ok entry

section

variable {system : System} {before store found : Store} {placed : List UnitFile}
  {temporary? : Option Location} {unit : UnitFile} {path directory : Path} {content bytes : ByteArray}

namespace Stage

theorem start (hlinkless : before.Linkless) : Stage before [] none before where
  continues := .refl hlinkless
  files _ _ := rfl
  fresh location hlocation := by cases hlocation
  reachable unit hunit := by cases hunit

/-- A stage goes on as long as no files change but the temporary one. -/
theorem next (h : Stage before placed temporary? store) (hcontinues : store.Continues found)
    {next? : Option Location}
    (hfiles : ∀ location, next? ≠ some location →
      found.file? location = contents before placed location)
    (hfresh : ∀ location, next? = some location → contents before placed location = none ∧
      ∃ name above, location = name :: above ∧ name.toList.head? = some '.') :
    Stage before placed next? found where
  continues := h.continues.trans hcontinues
  files := hfiles
  fresh := hfresh
  reachable unit hunit :=
    hcontinues.locateEntry h.continues.linkless (h.reachable unit hunit)

end Stage

/-- The stores a unit is written through. -/
def Amid (before : Store) (placed : List UnitFile) (unit : UnitFile) (store : Store) : Prop :=
  (∃ temporary?, Stage before placed temporary? store) ∨ Stage before (placed ++ [unit]) none store

/-- The stage at which there is a temporary file, with some content. -/
structure Holding (system : System) (before : Store) (placed : List UnitFile) (temporary : Path)
    (content : ByteArray) (store : Store) : Prop where
  stage : Stage before placed (some (store.place temporary)) store
  isTemporary : ∃ name, temporary.fileName? = some name ∧ system.IsTemporaryName name
  reachable : ∃ entry, store.locateEntry temporary = .ok entry
  file : store.file? (store.place temporary) = some content

/-! ### Requests -/

/-- A request that prepares the directory of a unit. -/
def IsPreparing : Request → Prop
  | .inspect _ | .makeDirectory _ => True
  | _ => False

theorem Stage.prepare {request : Request} (hrequest : IsPreparing request)
    (h : Stage before placed none store) {answer : Answer request}
    (hanswer : store.Answers system request answer found) : Stage before placed none found := by
  refine h.next (hanswer.continues h.continues.linkless) (fun location _ => ?_) h.fresh
  rw [← h.files location nofun]
  cases request with
  | inspect path => rw [hanswer.eq_of_isReading rfl]
  | makeDirectory path =>
      rcases hanswer.makeDirectory_cases with ⟨-, hmake⟩ | ⟨-, rfl⟩
      · obtain ⟨hne, hnone, rfl⟩ := Store.makeDirectory_eq_ok h.continues.linkless hmake
        rw [Store.file?_put hne]
        split
        · next heq => rw [heq, Store.file?_eq_none_of_node? hnone]; rfl
        · rfl
      · rfl
  | _ => cases hrequest

theorem Stage.create (hhides : system.HidesTemporaries) (h : Stage before placed none store)
    {name : String} (hcontinues : store.Continues found) (hname : system.IsTemporaryName name)
    (hentry : ∃ entry, store.locateEntry (directory.join name) = .ok entry)
    (hnone : store.node? (store.place (directory.join name)) = none)
    (hfound : found = store.put (store.place (directory.join name)) (.file (.regular ByteArray.empty))) :
    Holding system before placed (directory.join name) ByteArray.empty found := by
  subst hfound
  have hisName := hhides.isName hname
  have hplace := store.place_join_name directory hisName
  have hne : store.place (directory.join name) ≠ [] := by
    rw [hplace]
    exact List.cons_ne_nil _ _
  refine ⟨h.next hcontinues ?_ ?_, ⟨name, directory.fileName?_join hisName, hname⟩,
    hcontinues.locateEntry h.continues.linkless hentry, ?_⟩
  · intro location hlocation
    have hother : location ≠ store.place (directory.join name) :=
      fun heq => hlocation (congrArg some heq.symm)
    rw [Store.file?_put hne, if_neg hother]
    exact h.files location nofun
  · rintro location hlocation
    obtain rfl := Option.some.inj hlocation
    exact ⟨(h.files _ nofun).symm.trans (Store.file?_eq_none_of_node? hnone), name, _, hplace,
      hhides.head? hname⟩
  · exact (Store.file?_put hne _ _).trans (if_pos rfl)

namespace Holding

variable {temporary : Path}

theorem node? (h : Holding system before placed temporary content store) :
    store.node? (store.place temporary) = some (.file (.regular content)) :=
  Store.file?_eq_some_iff.1 h.file

theorem place_ne_nil (h : Holding system before placed temporary content store) :
    store.place temporary ≠ [] :=
  Store.ne_nil_of_node? h.node? nofun

theorem write (h : Holding system before placed temporary content store)
    (hcontinues : store.Continues found) (hwrite : store.write temporary bytes = .ok found) :
    Holding system before placed temporary bytes found := by
  obtain ⟨-, rfl⟩ := Store.write_eq_ok h.stage.continues.linkless hwrite
  refine ⟨h.stage.next hcontinues (fun location hlocation => ?_) h.stage.fresh, h.isTemporary,
    hcontinues.locateEntry h.stage.continues.linkless h.reachable, ?_⟩
  · have hother : location ≠ store.place temporary :=
      fun heq => hlocation (congrArg some heq.symm)
    rw [Store.file?_put h.place_ne_nil, if_neg hother]
    exact h.stage.files location hlocation
  · exact (Store.file?_put h.place_ne_nil _ _).trans (if_pos rfl)

/-- A refused write leaves the temporary file, whatever is in it. -/
theorem write_refused (h : Holding system before placed temporary content store)
    (hcontinues : store.Continues found)
    (hrefused : found = store ∨ ∃ torn, store.write temporary torn = .ok found) :
    ∃ torn, Holding system before placed temporary torn found := by
  rcases hrefused with rfl | ⟨torn, hwrite⟩
  · exact ⟨content, h⟩
  · exact ⟨torn, h.write hcontinues hwrite⟩

/-- The rename puts the content of the temporary file in place, and nothing else happens. -/
theorem rename (h : Holding system before placed temporary unit.text.toUTF8 store)
    (hcontinues : store.Continues found)
    (hrename : store.rename temporary unit.path = .ok found) :
    Stage before (placed ++ [unit]) none found := by
  obtain ⟨node, hnode, -, hentry, hne, -, rfl⟩ :=
    Store.rename_eq_ok h.stage.continues.linkless hrename
  obtain rfl : .file (.regular unit.text.toUTF8) = node := Option.some.inj (h.node?.symm.trans hnode)
  refine ⟨h.stage.continues.trans hcontinues, fun location _ => ?_, nofun, fun other hother => ?_⟩
  · rw [contents_concat, ← h.stage.continues.place_eq, Store.file?_put hne]
    by_cases htarget : location = store.place unit.path
    · rw [if_pos htarget, if_pos htarget.symm]
      rfl
    · rw [if_neg htarget, if_neg (Ne.symm htarget), Store.file?_erase h.place_ne_nil]
      split
      · next htemporary =>
        exact (h.stage.fresh location (htemporary ▸ rfl)).1.symm
      · next htemporary =>
        exact h.stage.files location fun heq => htemporary (Option.some.inj heq).symm
  · refine hcontinues.locateEntry h.stage.continues.linkless ?_
    rcases List.mem_append.1 hother with hother | hother
    · exact h.stage.reachable other hother
    · rw [List.mem_singleton.1 hother]
      exact hentry

theorem remove (h : Holding system before placed temporary content store)
    (hcontinues : store.Continues found)
    (hfound : found = store.erase (store.place temporary)) :
    Stage before placed none found := by
  refine h.stage.next hcontinues (fun location _ => ?_) nofun
  rw [hfound, Store.file?_erase h.place_ne_nil]
  split
  · next heq => exact (h.stage.fresh location (heq ▸ rfl)).1.symm
  · next hne => exact h.stage.files location fun heq => hne (Option.some.inj heq).symm

end Holding

/-! ### One unit -/

theorem safe_abandon (hremoves : system.RemovesTemporaries) {temporary : Path}
    (h : Holding system before placed temporary content store)
    {ends : Unit → Store → Prop} (fault : Fault) :
    Job.Safe system (Amid before placed unit) ends (fun _ => Stage before placed none) store
      (abandon temporary fault) := by
  have hremove : store.remove temporary = .ok (store.erase (store.place temporary)) := by
    obtain ⟨entry, hentry⟩ := h.reachable
    exact Store.remove_of_locateEntry h.stage.continues.linkless hentry h.node?
  have hrequest : (Script.request (.remove temporary)).Safe system (Amid before placed unit)
      (fun _ => Stage before placed none) store := by
    refine Script.safe_request _ (.inl ⟨_, h.stage⟩) fun answer found hanswer => ?_
    obtain ⟨name, hfile, hname⟩ := h.isTemporary
    have hfound := hanswer.remove_of_not_mayRefuse (hremoves temporary name hfile hname) hremove
    have hstage := h.remove (hanswer.continues h.stage.continues.linkless) hfound
    exact ⟨.inl ⟨_, hstage⟩, hstage⟩
  exact (Job.safe_lift hrequest).bind fun _ found halways hstage => Job.safe_fail halways hstage

theorem safe_prepare (h : Stage before placed none store) (directory : Path) :
    Job.Safe system (Amid before placed unit) (fun _ => Stage before placed none)
      (fun _ => Stage before placed none) store
      (Job.attempt .makeDirectory directory (ensureDirectory directory)) := by
  have hprepares : (ensureDirectory directory).Keeps IsPreparing fun _ => True :=
    keeps_ensureDirectories fun _ _ => ⟨trivial, trivial⟩
  have hkept : ∀ request, IsPreparing request → ∀ store, Stage before placed none store →
      ∀ answer found, store.Answers system request answer found → Stage before placed none found :=
    fun _ hrequest _ hstage _ _ hanswer => hstage.prepare hrequest hanswer
  refine Job.safe_attempt ((hprepares.safe hkept h).mono (fun _ hstage => .inl ⟨_, hstage⟩) ?_)
  rintro (cause | _) found ⟨-, hstage⟩
  · exact hstage
  · exact hstage

theorem safe_create (hhides : system.HidesTemporaries) (h : Stage before placed none store)
    (directory : Path) :
    Job.Safe system (Amid before placed unit)
      (fun temporary => Holding system before placed temporary ByteArray.empty)
      (fun _ => Stage before placed none) store
      (Job.attempt .createTemporary directory (Script.request (.createTemporary directory))) := by
  have halways : Amid before placed unit store := .inl ⟨_, h⟩
  refine Job.safe_attempt
    (Script.safe_request (.createTemporary directory) halways fun answer found hanswer => ?_)
  have hlinkless := h.continues.linkless
  rcases hanswer.createTemporary_cases hlinkless with
    ⟨name, hname, rfl, hentry, hnone, hfound⟩ | ⟨⟨cause, rfl⟩, rfl⟩
  · have hholding := h.create hhides (hanswer.continues hlinkless) hname hentry hnone hfound
    exact ⟨.inl ⟨_, hholding.stage⟩, hholding⟩
  · exact ⟨halways, h⟩

theorem safe_write {temporary : Path} (h : Holding system before placed temporary content store)
    (bytes : ByteArray) :
    (Script.request (.write temporary bytes)).Safe system (Amid before placed unit)
      (outcome (fun _ => Holding system before placed temporary bytes)
        fun _ found => ∃ torn, Holding system before placed temporary torn found) store := by
  refine Script.safe_request _ (.inl ⟨_, h.stage⟩) fun answer found hanswer => ?_
  have hcontinues := hanswer.continues h.stage.continues.linkless
  rcases hanswer.write_cases with ⟨rfl, hwrite⟩ | ⟨⟨cause, rfl⟩, hrefused⟩
  · have hholding := h.write hcontinues hwrite
    exact ⟨.inl ⟨_, hholding.stage⟩, hholding⟩
  · obtain ⟨torn, hholding⟩ := h.write_refused hcontinues hrefused
    exact ⟨.inl ⟨_, hholding.stage⟩, torn, hholding⟩

theorem safe_rename {temporary : Path}
    (h : Holding system before placed temporary unit.text.toUTF8 store) :
    (Script.request (.rename temporary unit.path)).Safe system (Amid before placed unit)
      (outcome (fun _ => Stage before (placed ++ [unit]) none)
        fun _ => Holding system before placed temporary unit.text.toUTF8) store := by
  have halways : Amid before placed unit store := .inl ⟨_, h.stage⟩
  refine Script.safe_request _ halways fun answer found hanswer => ?_
  rcases hanswer.rename_cases with ⟨rfl, hrename⟩ | ⟨⟨cause, rfl⟩, rfl⟩
  · have hstage := h.rename (hanswer.continues h.stage.continues.linkless) hrename
    exact ⟨.inr hstage, hstage⟩
  · exact ⟨halways, h⟩

/-- While a unit is written there is nothing but the stages before it, and the one after it is
reached exactly when the job succeeds. -/
theorem safe_writeUnit (hhides : system.HidesTemporaries) (hremoves : system.RemovesTemporaries)
    (h : Stage before placed none store) (unit : UnitFile) :
    Job.Safe system (Amid before placed unit) (fun _ => Stage before (placed ++ [unit]) none)
      (fun _ => Stage before placed none) store (writeUnit unit.path unit.text) := by
  unfold writeUnit
  refine (safe_prepare h _).bind fun _ found _ hstage => ?_
  refine (safe_create hhides hstage _).bind fun temporary found _ hcreated => ?_
  refine (Job.safe_lift (safe_write hcreated _)).bind fun answer found _ hwritten => ?_
  cases answer with
  | error cause =>
      obtain ⟨torn, htorn⟩ := hwritten
      exact safe_abandon hremoves htorn _
  | ok _ =>
      refine (Job.safe_lift (safe_rename hwritten)).bind fun answer found halways hrenamed => ?_
      cases answer with
      | error cause => exact safe_abandon hremoves hrenamed _
      | ok _ => exact Job.safe_pure halways hrenamed

/-! ### All units -/

/-- The stores that some units are written through. -/
def Within (before : Store) (units : List UnitFile) (store : Store) : Prop :=
  ∃ placed temporary?, placed <+: units ∧ Stage before placed temporary? store

theorem Amid.within {units rest : List UnitFile} (hunits : units = placed ++ unit :: rest)
    (h : Amid before placed unit store) : Within before units store := by
  rcases h with ⟨temporary?, hstage⟩ | hstage
  · exact ⟨placed, temporary?, ⟨unit :: rest, hunits.symm⟩, hstage⟩
  · exact ⟨placed ++ [unit], none, ⟨rest, by simp [hunits]⟩, hstage⟩

section

variable (hhides : system.HidesTemporaries) (hremoves : system.RemovesTemporaries)

include hhides hremoves

/-- One more unit on the way through all of them. -/
theorem safe_nextUnit {units rest : List UnitFile} (hunits : units = placed ++ unit :: rest)
    (h : Stage before placed none store) :
    Job.Safe system (Within before units) (fun _ => Stage before (placed ++ [unit]) none)
      (fun _ found => ∃ placed, placed <+: units ∧ Stage before placed none found) store
      (writeUnit unit.path unit.text) :=
  (safe_writeUnit hhides hremoves h unit).mono (fun _ hamid => hamid.within hunits)
    (fun _ _ hstage => hstage) fun _ _ hstage => ⟨placed, ⟨unit :: rest, hunits.symm⟩, hstage⟩

theorem safe_writeArtifact {layout : Layout} {indent : Indent} {artifact : Artifact}
    {units rest : List UnitFile}
    (hunits : units = placed ++ UnitTree.interfaces.unit layout indent artifact ::
      UnitTree.implementations.unit layout indent artifact :: rest)
    (h : Stage before placed none store) :
    Job.Safe system (Within before units)
      (fun written found => written = Written.of layout artifact ∧
        Stage before (placed ++ [UnitTree.interfaces.unit layout indent artifact] ++
          [UnitTree.implementations.unit layout indent artifact]) none found)
      (fun _ found => ∃ placed, placed <+: units ∧ Stage before placed none found) store
      (writeArtifact layout indent artifact) := by
  have himplementation : units = placed ++ [UnitTree.interfaces.unit layout indent artifact] ++
      UnitTree.implementations.unit layout indent artifact :: rest := by simp [hunits]
  refine (safe_nextUnit hhides hremoves hunits h).bind fun _ found _ hstage => ?_
  refine (safe_nextUnit hhides hremoves himplementation hstage).bind fun _ found halways hstage => ?_
  exact Job.safe_pure halways ⟨rfl, hstage⟩

theorem safe_writeArtifacts (layout : Layout) (indent : Indent) (artifacts : List Artifact)
    {units : List UnitFile} (hunits : units = placed ++ UnitFile.ofArtifacts layout indent artifacts)
    (h : Stage before placed none store) :
    Job.Safe system (Within before units)
      (fun written found => written = artifacts.map (Written.of layout) ∧
        Stage before units none found)
      (fun _ found => ∃ placed, placed <+: units ∧ Stage before placed none found) store
      (writeArtifacts layout indent artifacts) := by
  -- What is left to write gets shorter from the front, and what has been placed longer at the end.
  induction artifacts generalizing placed store with
  | nil =>
      have hplaced : units = placed := by simpa [UnitFile.ofArtifacts] using hunits
      exact Job.safe_pure ⟨placed, none, hplaced ▸ List.prefix_rfl, h⟩ ⟨rfl, hplaced ▸ h⟩
  | cons artifact rest ih =>
      let interface := UnitTree.interfaces.unit layout indent artifact
      let implementation := UnitTree.implementations.unit layout indent artifact
      have hrest : units = placed ++ [interface] ++ [implementation] ++
          UnitFile.ofArtifacts layout indent rest := by simp [hunits, UnitFile.ofArtifacts, interface,
            implementation]
      rw [writeArtifacts, List.mapM_cons]
      have hartifact := safe_writeArtifact hhides hremoves hunits h
      refine hartifact.bind fun written found _ hwritten => ?_
      obtain ⟨rfl, hstage⟩ := hwritten
      refine (ih hrest hstage).bind fun others found halways hothers => ?_
      obtain ⟨rfl, hstage⟩ := hothers
      exact Job.safe_pure halways ⟨rfl, hstage⟩

end

end

end Switchboard.Output
