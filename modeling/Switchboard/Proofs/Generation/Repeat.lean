import Switchboard.Proofs.Generation.ClassNames
import Switchboard.Proofs.Generation.Directory
import Switchboard.Proofs.Output.Sparing

/-!
Generating twice. A run that has succeeded can be repeated, with the same result and no further change.
For the units this is so because each of them is ready to be written again; for the mapping it is so
because no unit is ever put in its place. Wherever the units go, they are called after the mapping with
something in front, so the mapping would have to be called longer than it is.
-/

namespace Switchboard

open Disk Output

/-! ### Files -/

namespace Disk.Store

variable {store : Store} {path : Path} {location : Location} {bytes : ByteArray}

/-- A path that leads to a file ends with the name of the file, or with the way up. -/
theorem place_of_file (hlinkless : store.Linkless) (hlocate : store.locate path = .ok location)
    (hfile : store.node? location = some (.file (.regular bytes))) :
    path.fileName? = none ∨ ∃ name above, path.fileName? = some name ∧ location = name :: above := by
  obtain ⟨front, piece, hpieces⟩ : ∃ front piece, path.pieces = front ++ [piece] := by
    rcases List.eq_nil_or_concat path.pieces with hnil | ⟨front, piece, hpieces⟩
    · exact absurd hnil (List.splitOn_ne_nil _ _)
    · exact ⟨front, piece, by simpa using hpieces⟩
  obtain ⟨-, hadvance⟩ := (locate_eq_ok_iff hlinkless).1 hlocate
  rw [piecesOf_eq, hpieces, List.map_append, List.map_singleton] at hadvance
  obtain ⟨between, -, hdirectory, hlast⟩ := advance_append (List.cons_ne_nil _ _) hadvance
  have hname (hidle : Path.isIdle piece = false) : path.fileName? =
      if piece = ['.', '.'] then none else some (String.ofList piece) := by
    rw [Path.fileName?, hpieces, List.reverse_append, List.reverse_singleton, List.singleton_append,
      Path.settle_of_not_isIdle hidle]
    simp [hidle]
  obtain ⟨-, ⟨hpasses, hend⟩ | ⟨-, hend, -⟩ | ⟨link, -, hend⟩⟩ := advance_cases hlast
  · obtain rfl : between.enter (String.ofList piece) = location := by
      simpa [advance] using hend
    by_cases hidle : Path.isIdle piece
    · rw [Location.enter_of_isIdle hidle, hdirectory] at hfile
      cases hfile
    · have hname := hname (Bool.not_eq_true _ ▸ hidle)
      by_cases hup : piece = ['.', '.']
      · exact .inl (hname.trans (if_pos hup))
      · refine .inr ⟨String.ofList piece, between, hname.trans (if_neg hup), ?_⟩
        have hmem : piece ∈ path.pieces := by simp [hpieces]
        have hname := Path.IsName.of_piece (Bool.not_eq_true _ ▸ hidle) hup
          (Path.not_mem_of_mem_pieces hmem)
        exact Location.enter_of_isName hname between
  · cases hend
  · cases hend

end Disk.Store

/-- What a job comes to in a store that answers every request is what it can find there at all. -/
theorem Disk.Job.Finds.ends_of_result {α : Type} {store : Store} {ends : α → Prop} {job : Job α}
    (h : job.Finds .unreliable store ends) {value : α} (hresult : job.result store = .ok value) :
    ends value := by
  have hrun := Script.run_served .unreliable store job.run
  rw [show (store.run job.run).1 = .ok value from hresult] at hrun
  exact (h _ _ hrun).2 _ rfl

variable {store after : Store} {path : Path} {config : Config} {mapping : Mapping}

theorem Mapping.IsAt.name_eq (h : mapping.IsAt store config path) :
    mapping.name = Mapping.nameOfPath path := by
  obtain ⟨_, _, -, -, hmapping⟩ := h
  exact (Mapping.ofSource_eq_ok hmapping).1

/-- The file of a mapping is there, under the name that the mapping is called after. -/
theorem Mapping.IsAt.place (hlinkless : store.Linkless) (h : mapping.IsAt store config path) :
    ∃ bytes name above, store.read path = .ok bytes ∧ store.locate path = .ok (store.place path) ∧
      store.node? (store.place path) = some (.file (.regular bytes)) ∧ store.place path = name :: above ∧
      (Path.splitExtension name).1 = mapping.name := by
  obtain ⟨bytes, source, hread, -, -⟩ := id h
  obtain ⟨location, hlocate, hfile⟩ := Store.read_eq_ok_iff.1 hread
  obtain rfl := Store.locate_eq_place hlinkless hlocate
  have hstem : mapping.name = (path.fileName?.map fun name => (Path.splitExtension name).1).getD "" :=
    h.name_eq
  rcases Store.place_of_file hlinkless hlocate hfile with hnone | ⟨name, above, hname, hplace⟩
  · have hempty : mapping.name = "" := by simpa [hnone] using hstem
    have hword := mapping.name_isWordTail
    rw [hempty] at hword
    cases hword
  · exact ⟨bytes, name, above, hread, hlocate, hfile, hplace, by simpa [hname] using hstem.symm⟩

/-- The units of a mapping are not called like the file of the mapping. -/
theorem Output.UnitTree.fileName_ne (tree : UnitTree) (strategy : Strategy) {name : String}
    (h : (Path.splitExtension name).1 = mapping.name) :
    tree.fileName (strategy.className mapping.name) ≠ name := by
  rintro rfl
  rw [tree.splitExtension_fileName] at h
  exact strategy.className_ne mapping.name_isWordTail h

/-! ### Runs -/

namespace Generator

variable {generator : Generator} {strategies : List Strategy} {artifacts : List Artifact}
  {written : List Written}

/-- A run that has succeeded has emitted artifacts and written them. -/
theorem perform_emission_write_eq_ok {emission : Job (List Artifact)} (hreads : OnlyReads emission)
    (h : store.perform (emission >>= generator.write) = (.ok written, after)) :
    ∃ artifacts, emission.result store = .ok artifacts ∧
      store.perform (generator.write artifacts) = (.ok written, after) := by
  obtain ⟨artifacts, found, hemission, hwrite⟩ := Store.perform_bind_eq_ok_iff.1 h
  rw [Job.perform_eq_of_isReading hreads, Prod.mk.injEq] at hemission
  obtain ⟨hresult, rfl⟩ := hemission
  exact ⟨artifacts, hresult, hwrite⟩

theorem isAt_of_load (h : (generator.load path).result store = .ok mapping) :
    mapping.IsAt store generator.config path :=
  (finds_load generator path).ends_of_result h

theorem perform_emission_of_isAt (h : mapping.IsAt store generator.config path)
    (hemit : emitAll generator.config mapping strategies = .ok artifacts) :
    (generator.emission path strategies).result store = .ok artifacts := by
  have hload : (generator.load path).result store = .ok mapping :=
    congrArg Prod.fst (perform_load h generator.root)
  rw [result_emission, hload]
  exact hemit

/-- Artifacts of one mapping that have one class are the same. -/
theorem eq_of_className_eq (h : emitAll generator.config mapping strategies = .ok artifacts) :
    ∀ artifact ∈ artifacts, ∀ artifact' ∈ artifacts,
      artifact.className = artifact'.className → artifact = artifact' := by
  intro artifact hmem artifact' hmem' hclass
  obtain ⟨strategy, hemit⟩ := emitAll_eq_ok h artifact hmem
  obtain ⟨strategy', hemit'⟩ := emitAll_eq_ok h artifact' hmem'
  obtain ⟨_, -, hname⟩ := emit_eq_ok hemit
  obtain ⟨_, -, hname'⟩ := emit_eq_ok hemit'
  rw [hname, hname', Strategy.className_eq_iff] at hclass
  obtain ⟨rfl, -⟩ := hclass
  exact Except.ok.inj (hemit.symm.trans hemit')

/-- No unit of a mapping is put in the place of the mapping. -/
theorem place_ne_of_isAt (hlinkless : store.Linkless) (h : mapping.IsAt store config path)
    (hemit : emitAll config mapping strategies = .ok artifacts) {layout : Layout} {indent : Indent}
    {unit : UnitFile} (hunit : unit ∈ UnitFile.ofArtifacts layout indent artifacts) :
    store.place unit.path ≠ store.place path := by
  obtain ⟨artifact, hmem, tree, rfl⟩ := UnitFile.mem_ofArtifacts.1 hunit
  obtain ⟨strategy, hemit⟩ := emitAll_eq_ok hemit artifact hmem
  obtain ⟨_, -, hclass⟩ := emit_eq_ok hemit
  have hname : (tree.unit layout indent artifact).name =
      tree.fileName (strategy.className mapping.name) := by rw [UnitTree.unit, hclass]
  obtain ⟨_, name, above, -, -, -, hplace, hstem⟩ := h.place hlinkless
  rw [hplace, UnitFile.place_path (hname ▸ tree.isUnitName_fileName strategy mapping), hname]
  exact fun heq => tree.fileName_ne strategy hstem (List.cons.inj heq).1

/-- Writing units elsewhere leaves what can be read at a path. -/
theorem read_of_writes (hlinkless : store.Linkless) {units : List UnitFile}
    (hnames : ∀ unit ∈ units, IsUnitName unit.name) (hwrites : Writes store units after)
    (hcontinues : store.Continues after)
    (hother : ∀ unit ∈ units, store.place unit.path ≠ store.place path) {bytes : ByteArray}
    (hread : store.read path = .ok bytes) : after.read path = .ok bytes := by
  obtain ⟨location, hlocate, hfile⟩ := Store.read_eq_ok_iff.1 hread
  obtain rfl := Store.locate_eq_place hlinkless hlocate
  rcases hwrites.node?_cases hlinkless hnames hother with hsame | ⟨hnone, -⟩
  · have hafter := hsame.trans hfile
    exact Store.read_eq_ok_iff.2
      ⟨_, hcontinues.locate hlinkless hlocate (by simp [hafter]), hafter⟩
  · rw [hfile] at hnone
    cases hnone

/-- Generation is repeatable and leaves its input alone. In a store without links, wherever the output
goes, a run that has succeeded has not changed the mapping, and when it is repeated it succeeds with
the same result and leaves the same tree behind. -/
theorem generate_again (generator : Generator) (path : Path) (strategies : List Strategy)
    {store after : Store} {written : List Written} (hlinkless : store.Linkless)
    (hrun : store.perform (generator.generate path strategies) = (.ok written, after)) :
    (∃ bytes, store.read path = .ok bytes ∧ after.read path = .ok bytes) ∧
      ∃ again, after.perform (generator.generate path strategies) = (.ok written, again) ∧
        after.SameTree again := by
  have hreads := onlyReads_emission generator path strategies
  obtain ⟨artifacts, hemission, hwrite⟩ := perform_emission_write_eq_ok hreads hrun
  rw [result_emission] at hemission
  obtain ⟨mapping, hload, hemit⟩ := Except.bind_eq_ok_iff.1 hemission
  have hmapping := isAt_of_load hload
  have hemitted : ∀ artifact ∈ artifacts, IsEmitted artifact := by
    intro artifact hmem
    obtain ⟨strategy, hartifact⟩ := emitAll_eq_ok hemit artifact hmem
    exact ⟨mapping, strategy, generator.config, hartifact⟩
  obtain ⟨bytes, source, hread, hsource, hof⟩ := id hmapping
  have hread' : after.read path = .ok bytes :=
    read_of_writes hlinkless (fun _ => UnitFile.isUnitName hemitted)
      (perform_writeArtifacts_eq_ok_iff.1 hwrite).2 (Store.continues_perform hlinkless hwrite)
      (fun _ => place_ne_of_isAt hlinkless hmapping hemit) hread
  have hmapping' : mapping.IsAt after generator.config path := ⟨bytes, source, hread', hsource, hof⟩
  obtain ⟨again, hagain, hsame⟩ :=
    writeArtifacts_again hemitted (eq_of_className_eq hemit) hlinkless hwrite
  refine ⟨⟨bytes, hread, hread'⟩, again, ?_, hsame⟩
  rw [generate, perform_write_of_result generator hreads (perform_emission_of_isAt hmapping' hemit)]
  exact hagain

/-- The units of the mapping go to the directory in which the mapping is. -/
def besideMapping : Generator where
  config := { target := { Target.standard with includePrefix := "../maps" } }
  root := ⟨"."⟩

theorem linkless_ipProtocolsStore : ipProtocolsStore.Linkless :=
  Store.linkless_of_nodes (by decide)

theorem isAt_besideMapping :
    Mapping.ipProtocols.IsAt ipProtocolsStore besideMapping.config ⟨"maps/ip"⟩ := by
  have hread : ipProtocolsStore.read ⟨"maps/ip"⟩ = .ok Mapping.ipProtocolsText.toUTF8 := by rfl
  exact ⟨_, _, hread, String.fromUTF8?_toUTF8 _, Mapping.ofSource_ipProtocolsText⟩

/-- Two units are written next to the mapping, and written again. -/
theorem generate_again_beside :
    ipProtocolsStore.Linkless ∧ ∃ written after again,
      ipProtocolsStore.perform (besideMapping.generate ⟨"maps/ip"⟩ [.switch]) = (.ok written, after) ∧
      (after.file? ["GeneratedSwitchIp.h", "maps"]).isSome ∧
      (∃ bytes, ipProtocolsStore.read ⟨"maps/ip"⟩ = .ok bytes ∧ after.read ⟨"maps/ip"⟩ = .ok bytes) ∧
      after.perform (besideMapping.generate ⟨"maps/ip"⟩ [.switch]) = (.ok written, again) ∧
      after.SameTree again := by
  let artifact := Artifact.ofPlan besideMapping.config.target "ip"
    (.switch (SwitchPlan.ofMapping Mapping.ipProtocols))
  have hemission :
      (besideMapping.emission ⟨"maps/ip"⟩ [.switch]).result ipProtocolsStore = .ok [artifact] :=
    perform_emission_of_isAt isAt_besideMapping rfl
  have hgenerate : ipProtocolsStore.perform (besideMapping.generate ⟨"maps/ip"⟩ [.switch]) =
      ipProtocolsStore.perform (besideMapping.write [artifact]) :=
    perform_write_of_result _ (onlyReads_emission _ _ _) hemission
  have hsucceeds : (ipProtocolsStore.perform (besideMapping.write [artifact])).1.toBool ∧
      ((ipProtocolsStore.perform (besideMapping.write [artifact])).2.file?
        ["GeneratedSwitchIp.h", "maps"]).isSome := by
    decide +kernel
  rw [← hgenerate] at hsucceeds
  rcases hrun : ipProtocolsStore.perform (besideMapping.generate ⟨"maps/ip"⟩ [.switch]) with
    ⟨fault | written, after⟩
  · rw [hrun] at hsucceeds
    cases hsucceeds.1
  · rw [hrun] at hsucceeds
    obtain ⟨hread, again, hagain, hsame⟩ := generate_again _ _ _ linkless_ipProtocolsStore hrun
    exact ⟨linkless_ipProtocolsStore, written, after, again, rfl, hsucceeds.2, hread, hagain, hsame⟩

end Generator

end Switchboard
