import Switchboard.Proofs.Disk.Results
import Switchboard.Proofs.Disk.Room
import Switchboard.Proofs.Output.Directories
import Switchboard.Proofs.Output.Units

/-!
Writing units over units. In a store that answers every request, writing a unit succeeds exactly when
its directory can be made and then accepts the unit (`Accepts`), and what it comes to is the store with
the directory in which there is one more file. The temporary file is gone. A unit that is there already
in a directory that accepts it (`Ready`) can therefore be written again, and that changes nothing.

That a unit is ready when it has been written does not settle the matter, since other units are written
behind it. They take files away only where they put others, and they can use up names of temporary files
in the directory of the unit only by making directories of such names there. `Spares` says that neither
happens.
-/

namespace Switchboard

open Disk

namespace Disk.Store

/-- The stores have the same home, and the same stands at each location. -/
structure SameTree (store store' : Store) : Prop where
  home : store'.home = store.home
  node? : ∀ location, store'.node? location = store.node? location

variable {store store' : Store}

theorem SameTree.refl (store : Store) : store.SameTree store :=
  ⟨rfl, fun _ => rfl⟩

theorem SameTree.keepsDirectories (h : store.SameTree store') : store.KeepsDirectories store' :=
  fun location hdirectory => (h.node? location).trans hdirectory

theorem SameTree.trans {store'' : Store} (h : store.SameTree store') (h' : store'.SameTree store'') :
    store.SameTree store'' :=
  ⟨h'.home.trans h.home, fun location => (h'.node? location).trans (h.node? location)⟩

end Disk.Store

namespace Output

variable {store found made : Store} {unit other : UnitFile} {path : Path} {text : String}

/-! ### One unit -/

theorem run_createTemporary_eq_ok_iff {directory temporary : Path} :
    store.run (Script.request (.createTemporary directory)) = (.ok temporary, found) ↔
      store.createTemporary directory = .ok (temporary, found) := by
  have hrun : store.run (Script.request (.createTemporary directory)) =
      (Store.answer (.createTemporary directory)).run store := rfl
  rw [hrun]
  simp only [Store.answer, StateT.run]
  cases store.createTemporary directory with
  | ok made => simp [Prod.ext_iff]
  | error cause => simp

/-- What gives the unit up when a change is refused succeeds only if the change is made. -/
theorem perform_change_eq_ok_iff {script : Script (Except Cause Unit)} {change : Except Cause Store}
    {next : Except Cause Unit → Job Unit} (hscript : store.run script = store.changed change)
    (hnext : ∀ cause, ∃ temporary fault, next (.error cause) = abandon temporary fault) :
    store.perform (ExceptT.lift script >>= next) = (.ok (), found) ↔
      ∃ store', change = .ok store' ∧ store'.perform (next (.ok ())) = (.ok (), found) := by
  rw [Store.perform_bind, Store.perform_lift, hscript]
  cases change with
  | ok store' => simp [Store.changed]
  | error cause =>
      obtain ⟨temporary, fault, hfault⟩ := hnext cause
      simp [Store.changed, hfault, abandon, Store.perform_bind]

/-- A unit is written in four steps. -/
theorem perform_writeUnit_eq_ok_iff : store.perform (writeUnit path text) = (.ok (), found) ↔
    ∃ made temporary held written,
      store.run (ensureDirectory path.directory) = (.ok (), made) ∧
      made.createTemporary path.directory = .ok (temporary, held) ∧
      held.write temporary text.toUTF8 = .ok written ∧ written.rename temporary path = .ok found := by
  have hwrite (held : Store) (temporary : Path) :
      held.run (Script.request (.write temporary text.toUTF8)) =
        held.changed (held.write temporary text.toUTF8) := rfl
  have hrename (written : Store) (temporary : Path) :
      written.run (Script.request (.rename temporary path)) =
        written.changed (written.rename temporary path) := rfl
  unfold writeUnit
  constructor
  · intro h
    obtain ⟨_, made, hensure, h⟩ := Store.perform_bind_eq_ok_iff.1 h
    obtain ⟨temporary, held, hcreate, h⟩ := Store.perform_bind_eq_ok_iff.1 h
    rw [Store.perform_attempt_eq_ok_iff] at hensure hcreate
    obtain ⟨written, hwritten, h⟩ :=
      (perform_change_eq_ok_iff (hwrite held temporary) fun _ => ⟨_, _, rfl⟩).1 h
    obtain ⟨renamed, hrenamed, h⟩ :=
      (perform_change_eq_ok_iff (hrename written temporary) fun _ => ⟨_, _, rfl⟩).1 h
    cases h
    exact ⟨made, temporary, held, written, hensure, run_createTemporary_eq_ok_iff.1 hcreate, hwritten,
      hrenamed⟩
  · rintro ⟨made, temporary, held, written, hensure, hcreate, hwritten, hrenamed⟩
    rw [← run_createTemporary_eq_ok_iff] at hcreate
    refine Store.perform_bind_eq_ok_iff.2 ⟨(), made, Store.perform_attempt_eq_ok_iff.2 hensure, ?_⟩
    refine Store.perform_bind_eq_ok_iff.2
      ⟨temporary, held, Store.perform_attempt_eq_ok_iff.2 hcreate, ?_⟩
    refine (perform_change_eq_ok_iff (hwrite held temporary) fun _ => ⟨_, _, rfl⟩).2
      ⟨written, hwritten, ?_⟩
    exact (perform_change_eq_ok_iff (hrename written temporary) fun _ => ⟨_, _, rfl⟩).2
      ⟨found, hrenamed, rfl⟩

/-- There is one more file, or one with another content. -/
structure Puts (store : Store) (location : Location) (bytes : ByteArray) (found : Store) : Prop where
  home : found.home = store.home
  node? : ∀ other,
    found.node? other = if other = location then some (.file (.regular bytes)) else store.node? other

namespace Puts

variable {location : Location} {bytes bytes' : ByteArray}

theorem of_put (hne : location ≠ []) :
    Puts store location bytes (store.put location (.file (.regular bytes))) :=
  ⟨rfl, Store.node?_put hne _⟩

theorem trans (h : Puts store location bytes found) {found' : Store}
    (h' : Puts found location bytes' found') : Puts store location bytes' found' := by
  refine ⟨h'.home.trans h.home, fun other => ?_⟩
  rw [h'.node?, h.node?]
  split <;> rfl

theorem linkless (h : Puts store location bytes found) (hlinkless : store.Linkless) :
    found.Linkless := by
  intro other target
  rw [h.node?]
  split
  · simp
  · exact hlinkless other target

/-- What is a directory behind the change was one before it. -/
theorem keepsDirectories (h : Puts store location bytes found) : found.KeepsDirectories store := by
  intro other hother
  rw [h.node?] at hother
  split at hother
  · cases hother
  · exact hother

/-- What was a directory before the change is one behind it, unless there is the file. -/
theorem keepsDirectories' (h : Puts store location bytes found)
    (hnot : store.node? location ≠ some .directory) : store.KeepsDirectories found := by
  intro other hother
  rw [h.node?, if_neg]
  · exact hother
  · rintro rfl
    exact hnot hother

/-- A new file that is moved leaves nothing behind. -/
theorem move (h : Puts store location bytes found) (hnone : store.node? location = none)
    {target : Location} (hne : location ≠ []) (htarget : target ≠ []) :
    Puts store target bytes ((found.erase location).put target (.file (.regular bytes))) := by
  refine ⟨h.home, fun other => ?_⟩
  rw [Store.node?_put htarget, Store.node?_erase hne, h.node?]
  split
  · rfl
  · split
    · next heq => rw [heq, hnone]
    · rfl

end Puts

/-- A unit can be put at the path. -/
structure Accepts (store : Store) (path : Path) : Prop where
  hasRoom : store.HasRoom path.directory
  reachable : ∃ entry, store.locateEntry path = .ok entry
  noDirectory : store.node? (store.place path) ≠ some .directory

theorem IsUnitName.place_ne (h : IsUnitName unit.name) (store : Store) (number : Nat)
    (above : Location) : store.place unit.path ≠ Store.temporaryName number :: above := by
  rw [UnitFile.place_path h]
  exact fun heq => h.ne_of_head? (Store.head?_temporaryName number) (List.cons.inj heq).1

/-- A store in which the steps succeed accepts the unit, and what they come to is one more file. -/
theorem accepts_of_steps (hname : IsUnitName unit.name) (hlinkless : made.Linkless)
    {temporary : Path} {held written : Store} {bytes : ByteArray}
    (hcreate : made.createTemporary unit.path.directory = .ok (temporary, held))
    (hwrite : held.write temporary bytes = .ok written)
    (hrename : written.rename temporary unit.path = .ok found) :
    Accepts made unit.path ∧ Puts made (made.place unit.path) bytes found := by
  have hroom := (Store.exists_createTemporary_iff hlinkless).1 ⟨_, hcreate⟩
  obtain ⟨number, rfl, -, hnone, rfl⟩ := Store.createTemporary_eq_ok hlinkless hcreate
  let location := made.place (unit.path.directory.join (Store.temporaryName number))
  have hlocation : location = Store.temporaryName number :: made.place unit.path.directory :=
    made.place_join_name _ (Store.isName_temporaryName number)
  have hne : location ≠ [] := by simp [hlocation]
  have hother : made.place unit.path ≠ location := hlocation ▸ hname.place_ne made number _
  have hheld : Puts made location ByteArray.empty _ := .of_put hne
  obtain ⟨-, rfl⟩ := Store.write_eq_ok (hheld.linkless hlinkless) hwrite
  have hwritten : Puts made location bytes _ := hheld.trans (.of_put hne)
  obtain ⟨node, hnode, -, ⟨entry, hentry⟩, htarget, hdirectory, rfl⟩ :=
    Store.rename_eq_ok (hwritten.linkless hlinkless) hrename
  have hfile := hwritten.node? location
  rw [if_pos rfl] at hfile
  obtain rfl : .file (.regular bytes) = node := Option.some.inj (hfile.symm.trans hnode)
  refine ⟨⟨hroom, ⟨entry, ?_⟩, fun h => hdirectory ?_⟩, hwritten.move hnone hne htarget⟩
  · exact Store.locateEntry_of_keepsDirectories hwritten.home.symm hwritten.keepsDirectories
      (hwritten.linkless hlinkless) hlinkless hentry
  · exact ((hwritten.node? _).trans (if_neg hother)).trans h

/-- In a store that accepts the unit the steps succeed. -/
theorem Accepts.exists_steps (hname : IsUnitName unit.name) (hlinkless : made.Linkless)
    (h : Accepts made unit.path) (bytes : ByteArray) : ∃ temporary held written found,
      made.createTemporary unit.path.directory = .ok (temporary, held) ∧
      held.write temporary bytes = .ok written ∧ written.rename temporary unit.path = .ok found := by
  obtain ⟨⟨temporary, held⟩, hcreate⟩ := (Store.exists_createTemporary_iff hlinkless).2 h.hasRoom
  obtain ⟨number, rfl, ⟨entry, hentry⟩, hnone, rfl⟩ := Store.createTemporary_eq_ok hlinkless hcreate
  have hisName := Store.isName_temporaryName number
  let location := made.place (unit.path.directory.join (Store.temporaryName number))
  have hlocation : location = Store.temporaryName number :: made.place unit.path.directory :=
    made.place_join_name _ hisName
  have hne : location ≠ [] := by simp [hlocation]
  have hother : made.place unit.path ≠ location := hlocation ▸ hname.place_ne made number _
  have hheld : Puts made location ByteArray.empty _ := .of_put hne
  have hwritten : Puts made location bytes _ := hheld.trans (.of_put hne)
  have hkeeps := hheld.keepsDirectories' (by simp [location, hnone])
  have hkeeps' := hwritten.keepsDirectories' (by simp [location, hnone])
  have hentry' := Store.locateEntry_of_keepsDirectories hheld.home hkeeps hlinkless
    (hheld.linkless hlinkless) hentry
  have hwrite := Store.write_of_locateEntry (hheld.linkless hlinkless) hisName hentry'
    ((hheld.node? location).trans (if_pos rfl)) bytes
  obtain ⟨target, htarget⟩ := h.reachable
  have hrename := Store.rename_of_locateEntry (hwritten.linkless hlinkless)
    (Store.locateEntry_of_keepsDirectories hwritten.home hkeeps' hlinkless
      (hwritten.linkless hlinkless) hentry)
    (Store.locateEntry_of_keepsDirectories hwritten.home hkeeps' hlinkless
      (hwritten.linkless hlinkless) htarget)
    ((hwritten.node? location).trans (if_pos rfl))
    (fun hdirectory => h.noDirectory (((hwritten.node? _).trans (if_neg hother)).symm.trans hdirectory))
  exact ⟨_, _, _, _, hcreate, hwrite, hrename⟩

/-- What writing a unit comes to when it succeeds. -/
theorem writeUnit_spec (hname : IsUnitName unit.name) (hlinkless : store.Linkless)
    (h : store.perform (writeUnit unit.path unit.text) = (.ok (), found)) :
    ∃ made, Opened store unit.path.directory made ∧ store.Continues made ∧ Accepts made unit.path ∧
      Puts made (store.place unit.path) unit.text.toUTF8 found := by
  obtain ⟨made, temporary, held, written, hensure, hcreate, hwrite, hrename⟩ :=
    perform_writeUnit_eq_ok_iff.1 h
  have hmade : (store.run (ensureDirectory unit.path.directory)).2 = made := congrArg Prod.snd hensure
  have hopened := opened_ensureDirectory hlinkless unit.path.directory
  have hcontinues := Store.continues_run hlinkless (ensureDirectory unit.path.directory)
  rw [hmade] at hopened hcontinues
  obtain ⟨haccepts, hputs⟩ := accepts_of_steps hname hcontinues.linkless hcreate hwrite hrename
  rw [hcontinues.place_eq] at hputs
  exact ⟨made, hopened, hcontinues, haccepts, hputs⟩

/-! ### Units that are there -/

/-- The unit is there, and there is room to write it again. -/
structure Ready (store : Store) (unit : UnitFile) : Prop where
  hasRoom : store.HasRoom unit.path.directory
  reachable : ∃ entry, store.locateEntry unit.path = .ok entry
  file : store.node? (store.place unit.path) = some (.file (.regular unit.text.toUTF8))

/-- Writing a unit that is there changes nothing. -/
theorem Ready.perform_writeUnit (hname : IsUnitName unit.name) (hlinkless : store.Linkless)
    (h : Ready store unit) : ∃ found,
      store.perform (writeUnit unit.path unit.text) = (.ok (), found) ∧ store.SameTree found := by
  have hdirectory : unit.path.directory = unit.directory.opened :=
    unit.directory.directory_join hname.isName
  have hensure : store.run (ensureDirectory unit.path.directory) = (.ok (), store) := by
    have hroom := h.hasRoom.hasDirectory
    rw [hdirectory] at hroom ⊢
    exact run_ensureDirectory_of_hasDirectory hlinkless hroom
  have haccepts : Accepts store unit.path := ⟨h.hasRoom, h.reachable, by simp [h.file]⟩
  obtain ⟨temporary, held, written, found, hcreate, hwrite, hrename⟩ :=
    haccepts.exists_steps hname hlinkless unit.text.toUTF8
  obtain ⟨-, hputs⟩ := accepts_of_steps hname hlinkless hcreate hwrite hrename
  refine ⟨found, perform_writeUnit_eq_ok_iff.2
    ⟨store, temporary, held, written, hensure, hcreate, hwrite, hrename⟩, hputs.home, fun other => ?_⟩
  rw [hputs.node?]
  split
  · next heq => rw [heq, h.file]
  · rfl

theorem Ready.of_sameTree (hlinkless : store.Linkless) (hlinkless' : found.Linkless)
    (h : Ready store unit) (hsame : store.SameTree found) : Ready found unit := by
  obtain ⟨entry, hentry⟩ := h.reachable
  refine ⟨?_, ⟨entry, ?_⟩, ?_⟩
  · refine h.hasRoom.of_keepsDirectories hsame.home hsame.keepsDirectories hlinkless hlinkless' ?_
    simp only [hsame.node?]
    exact h.hasRoom.free
  · exact Store.locateEntry_of_keepsDirectories hsame.home hsame.keepsDirectories hlinkless hlinkless'
      hentry
  · rw [Store.place_eq_of_home hsame.home, hsame.node?, h.file]

/-- A unit that has been written is ready to be written again. -/
theorem ready_of_writeUnit (hname : IsUnitName unit.name) (hlinkless : store.Linkless)
    (h : store.perform (writeUnit unit.path unit.text) = (.ok (), found)) : Ready found unit := by
  obtain ⟨made, -, hcontinues, haccepts, hputs⟩ := writeUnit_spec hname hlinkless h
  rw [← hcontinues.place_eq] at hputs
  have hkeeps := hputs.keepsDirectories' haccepts.noDirectory
  have hfound := hputs.linkless hcontinues.linkless
  obtain ⟨entry, hentry⟩ := haccepts.reachable
  refine ⟨?_, ⟨entry, ?_⟩, ?_⟩
  · refine haccepts.hasRoom.of_keepsDirectories hputs.home hkeeps hcontinues.linkless hfound ?_
    obtain ⟨number, hlt, hnone⟩ := haccepts.hasRoom.free
    refine ⟨number, hlt, ?_⟩
    rw [hputs.node?, if_neg (hname.place_ne made number _).symm]
    exact hnone
  · exact Store.locateEntry_of_keepsDirectories hputs.home hkeeps hcontinues.linkless hfound hentry
  · rw [hputs.node?, Store.place_eq_of_home hputs.home, if_pos rfl]

/-- Writing the other unit leaves the unit as it is, and leaves room in its directory. -/
structure Spares (store : Store) (other unit : UnitFile) : Prop where
  /-- Where the unit has its directory, the other one needs no directory with the name of a temporary
  file that the unit does not need itself, unless both have one directory. -/
  names : ∀ number,
    store.Enters other.path.directory (store.place unit.path.directory) (Store.temporaryName number) →
      store.Enters unit.path.directory (store.place unit.path.directory)
          (Store.temporaryName number) ∨
        store.place other.path.directory = store.place unit.path.directory
  text : store.place other.path = store.place unit.path → other.text = unit.text

theorem Spares.of_home (h : Spares store other unit) (hhome : found.home = store.home) :
    Spares found other unit := by
  refine ⟨fun number => ?_, ?_⟩
  · simp only [Store.enters_iff_of_home hhome, Store.place_eq_of_home hhome]
    exact h.names number
  · simp only [Store.place_eq_of_home hhome]
    exact h.text

/-- A unit stays ready when another one is written that spares it. -/
theorem Ready.next (hname : IsUnitName other.name) (hlinkless : store.Linkless)
    (h : Ready store unit) (hspares : Spares store other unit)
    (hwrite : store.perform (writeUnit other.path other.text) = (.ok (), found)) :
    Ready found unit := by
  have hcontinues := Store.continues_perform hlinkless hwrite
  have hother := ready_of_writeUnit hname hlinkless hwrite
  obtain ⟨made, hopened, -, -, hputs⟩ := writeUnit_spec hname hlinkless hwrite
  refine ⟨?_, hcontinues.locateEntry hlinkless h.reachable, ?_⟩
  · refine h.hasRoom.of_keepsDirectories hcontinues.home hcontinues.directories hlinkless
      hcontinues.linkless ?_
    by_cases hsame : store.place other.path.directory = store.place unit.path.directory
    · have hfree := hother.hasRoom.free
      rwa [hcontinues.place_eq, hsame] at hfree
    · obtain ⟨number, hlt, hnone⟩ := h.hasRoom.free
      refine ⟨number, hlt, ?_⟩
      rw [hputs.node?, if_neg (hname.place_ne store number _).symm]
      rcases hopened.nodes (Store.temporaryName number :: store.place unit.path.directory) with
        hnode | ⟨-, -, above, name, heq, henters⟩
      · exact hnode.trans hnone
      · -- The unit would need the new directory as well, but it has been written without it.
        obtain ⟨rfl, rfl⟩ := List.cons.inj heq
        rcases hspares.names number henters with hneeds | hsame'
        · rw [h.hasRoom.hasDirectory.node?_of_enters hlinkless hneeds] at hnone
          cases hnone
        · exact absurd hsame' hsame
  · rw [hcontinues.place_eq, hputs.node?]
    split
    · next heq => rw [hspares.text heq.symm]
    · rcases hopened.nodes (store.place unit.path) with hnode | ⟨hnone, -⟩
      · exact hnode.trans h.file
      · rw [h.file] at hnone
        cases hnone

/-! ### All units -/

/-- Units are written one after the other, each of them successfully. -/
inductive Writes : Store → List UnitFile → Store → Prop
  | nil (store : Store) : Writes store [] store
  | cons {store found after : Store} {unit : UnitFile} {rest : List UnitFile}
      (hunit : store.perform (writeUnit unit.path unit.text) = (.ok (), found))
      (hrest : Writes found rest after) : Writes store (unit :: rest) after

variable {after : Store} {units rest : List UnitFile} {layout : Layout} {indent : Indent}
  {artifacts : List Artifact} {written : List Written}

theorem writes_nil_iff : Writes store [] after ↔ after = store := by
  constructor
  · rintro ⟨⟩
    rfl
  · rintro rfl
    exact .nil after

theorem writes_cons_iff : Writes store (unit :: rest) after ↔
    ∃ found, store.perform (writeUnit unit.path unit.text) = (.ok (), found) ∧
      Writes found rest after := by
  constructor
  · rintro (_ | ⟨hunit, hrest⟩)
    exact ⟨_, hunit, hrest⟩
  · rintro ⟨found, hunit, hrest⟩
    exact .cons hunit hrest

theorem writes_append_iff : Writes store (units ++ rest) after ↔
    ∃ found, Writes store units found ∧ Writes found rest after := by
  induction units generalizing store with
  | nil => simp [writes_nil_iff]
  | cons unit units ih =>
      simp only [List.cons_append, writes_cons_iff, ih]
      constructor
      · rintro ⟨found, hunit, found', hunits, hrest⟩
        exact ⟨found', ⟨found, hunit, hunits⟩, hrest⟩
      · rintro ⟨found', ⟨found, hunit, hunits⟩, hrest⟩
        exact ⟨found, hunit, found', hunits, hrest⟩

theorem perform_writeArtifact_eq_ok_iff {artifact : Artifact} {value : Written} :
    store.perform (writeArtifact layout indent artifact) = (.ok value, after) ↔
      value = Written.of layout artifact ∧
        Writes store ([.interfaces, .implementations].map (UnitTree.unit layout indent artifact))
          after := by
  simp only [List.map_cons, List.map_nil, writes_cons_iff, writes_nil_iff]
  unfold writeArtifact
  constructor
  · intro h
    obtain ⟨_, found, hinterface, h⟩ := Store.perform_bind_eq_ok_iff.1 h
    obtain ⟨_, found', himplementation, h⟩ := Store.perform_bind_eq_ok_iff.1 h
    cases h
    exact ⟨rfl, found, hinterface, _, himplementation, rfl⟩
  · rintro ⟨rfl, found, hinterface, _, himplementation, rfl⟩
    exact Store.perform_bind_eq_ok_iff.2 ⟨(), found, hinterface,
      Store.perform_bind_eq_ok_iff.2 ⟨(), _, himplementation, rfl⟩⟩

/-- Writing artifacts succeeds exactly if writing their units does, and describes them in order. -/
theorem perform_writeArtifacts_eq_ok_iff :
    store.perform (writeArtifacts layout indent artifacts) = (.ok written, after) ↔
      written = artifacts.map (Written.of layout) ∧
        Writes store (UnitFile.ofArtifacts layout indent artifacts) after := by
  induction artifacts generalizing store written with
  | nil =>
      rw [show writeArtifacts layout indent [] = pure [] from rfl,
        show UnitFile.ofArtifacts layout indent [] = [] from rfl, Store.perform_pure, writes_nil_iff]
      simp [Prod.ext_iff, eq_comm]
  | cons artifact others ih =>
      have hunits : UnitFile.ofArtifacts layout indent (artifact :: others) =
          [.interfaces, .implementations].map (UnitTree.unit layout indent artifact) ++
            UnitFile.ofArtifacts layout indent others := List.flatMap_cons
      rw [writeArtifacts, List.mapM_cons, hunits, writes_append_iff]
      constructor
      · intro h
        obtain ⟨first, found, hfirst, h⟩ := Store.perform_bind_eq_ok_iff.1 h
        obtain ⟨values, found', hvalues, h⟩ := Store.perform_bind_eq_ok_iff.1 h
        cases h
        obtain ⟨rfl, hartifact⟩ := perform_writeArtifact_eq_ok_iff.1 hfirst
        obtain ⟨rfl, hothers⟩ := ih.1 hvalues
        exact ⟨rfl, found, hartifact, hothers⟩
      · rintro ⟨rfl, found, hartifact, hothers⟩
        have hfirst := perform_writeArtifact_eq_ok_iff.2 ⟨rfl, hartifact⟩
        exact Store.perform_bind_eq_ok_iff.2 ⟨_, found, hfirst,
          Store.perform_bind_eq_ok_iff.2 ⟨_, after, ih.2 ⟨rfl, hothers⟩, rfl⟩⟩

/-- What is under none of the paths stays, and directories have come up on the ways to them only. -/
theorem Writes.node?_cases (hlinkless : store.Linkless) (hnames : ∀ unit ∈ units, IsUnitName unit.name)
    (h : Writes store units after) {location : Location}
    (hother : ∀ unit ∈ units, store.place unit.path ≠ location) :
    after.node? location = store.node? location ∨
      store.node? location = none ∧ after.node? location = some .directory ∧
        ∃ unit ∈ units, ∃ above name, location = name :: above ∧
          store.Enters unit.path.directory above name := by
  induction h with
  | nil store => exact .inl rfl
  | @cons store found after unit rest hunit hrest ih =>
      obtain ⟨hname, hnames⟩ := List.forall_mem_cons.1 hnames
      obtain ⟨hplace, hother⟩ := List.forall_mem_cons.1 hother
      have hcontinues := Store.continues_perform hlinkless hunit
      obtain ⟨made, hopened, -, -, hputs⟩ := writeUnit_spec hname hlinkless hunit
      have hfound := hputs.node? location
      rw [if_neg hplace.symm] at hfound
      have hafter := ih hcontinues.linkless hnames fun other hmem => by
        rw [hcontinues.place_eq]
        exact hother other hmem
      rcases hafter with hafter | ⟨hnone, hafter, other, hmem, above, name, heq, henters⟩
      · rcases hopened.nodes location with hnode | ⟨hnone, hmade, above, name, heq, henters⟩
        · exact .inl (hafter.trans (hfound.trans hnode))
        · exact .inr ⟨hnone, hafter.trans (hfound.trans hmade), unit, List.mem_cons_self, above, name,
            heq, henters⟩
      · rw [Store.enters_iff_of_home hcontinues.home] at henters
        rcases hopened.nodes location with hnode | ⟨hnone', -⟩
        · exact .inr ⟨hnode.symm.trans (hfound.symm.trans hnone), hafter, other,
            List.mem_cons_of_mem _ hmem, above, name, heq, henters⟩
        · exact .inr ⟨hnone', hafter, other, List.mem_cons_of_mem _ hmem, above, name, heq, henters⟩

/-- Of units that spare each other, all are ready when all have been written. -/
theorem ready_of_writes {done : List UnitFile} (hlinkless : store.Linkless)
    (hnames : ∀ unit ∈ rest, IsUnitName unit.name)
    (hspares : ∀ unit ∈ done ++ rest, ∀ other ∈ rest, Spares store other unit)
    (hdone : ∀ unit ∈ done, Ready store unit) (h : Writes store rest after) :
    ∀ unit ∈ done ++ rest, Ready after unit := by
  induction h generalizing done with
  | nil store => simpa using hdone
  | @cons store found after unit rest hunit hrest ih =>
      have hname := hnames unit List.mem_cons_self
      have hcontinues := Store.continues_perform hlinkless hunit
      rw [List.append_cons] at hspares ⊢
      refine ih hcontinues.linkless (fun other hother => hnames other (List.mem_cons_of_mem _ hother))
        (fun earlier hearlier other hother => ?_) fun earlier hearlier => ?_
      · exact (hspares earlier hearlier other (List.mem_cons_of_mem _ hother)).of_home hcontinues.home
      · rcases List.mem_append.1 hearlier with hmem | hmem
        · refine (hdone earlier hmem).next hname hlinkless ?_ hunit
          exact hspares earlier (List.mem_append_left _ hearlier) unit List.mem_cons_self
        · rw [List.mem_singleton.1 hmem]
          exact ready_of_writeUnit hname hlinkless hunit

/-- Units that are ready can all be written again, and that changes nothing. -/
theorem writes_of_ready (hlinkless : store.Linkless) (hnames : ∀ unit ∈ units, IsUnitName unit.name)
    (hready : ∀ unit ∈ units, Ready store unit) :
    ∃ after, Writes store units after ∧ store.SameTree after := by
  induction units generalizing store with
  | nil => exact ⟨store, .nil store, .refl store⟩
  | cons unit rest ih =>
      obtain ⟨hname, hnames⟩ := List.forall_mem_cons.1 hnames
      obtain ⟨hunit, hrest⟩ := List.forall_mem_cons.1 hready
      obtain ⟨found, hwrite, hsame⟩ := hunit.perform_writeUnit hname hlinkless
      have hfound := (Store.continues_perform hlinkless hwrite).linkless
      obtain ⟨after, hwrites, hsame'⟩ := ih hfound hnames fun other hother =>
        (hrest other hother).of_sameTree hlinkless hfound hsame
      exact ⟨after, .cons hwrite hwrites, hsame.trans hsame'⟩

end Output

end Switchboard
