import Switchboard.Proofs.Generation.Listing
import Switchboard.Proofs.Generation.Repeat

/-!
Generating a directory twice. The run over a directory reads whatever it sees there, so it can be
repeated as long as it does not come to see what it writes (`Generator.ShowsIn`). The output can show in
the directory in two ways: units are put into it, or one of the directories on the way to them lies in
it. In either case the run fails when it is repeated, because a unit is no mapping and a directory is no
file. Hidden directories are not looked at.
-/

namespace Switchboard

open Disk Output

/-! ### Emission -/

namespace Generator

variable {generator : Generator} {store after : Store} {directory path : Path} {paths : List Path}
  {artifacts : List Artifact} {written : List Written}

/-- What a mapping is loaded from is its file, and nothing else. -/
theorem result_loadMapping_congr (config : Config) (h : after.read path = store.read path) :
    (Mapping.load config path).result after = (Mapping.load config path).result store := by
  have hread (store : Store) : (Job.attempt .read path (Script.request (.read path))).result store =
      match store.read path with
      | .ok bytes => .ok bytes
      | .error cause => .error (.disk .read path cause) := by
    have hrun : store.run (Script.request (.read path)) = (store.read path, store) := rfl
    rw [Job.result, Job.attempt, Store.perform_bind, Store.perform_lift, hrun]
    cases store.read path <;> rfl
  have hreading : (Request.read path).isReading := rfl
  have hreads : OnlyReads (Job.attempt .read path (Script.request (.read path))) :=
    onlyReads_attempt hreading rfl
  rw [Mapping.load, Job.result_bind hreads, Job.result_bind hreads, hread, hread, h]
  refine congrArg _ (funext fun bytes => ?_)
  cases String.fromUTF8? bytes <;> rfl

theorem result_emitFiles_congr (config : Config) (owners : Owners)
    (h : ∀ path ∈ paths, after.read path = store.read path) :
    (emitFiles config owners paths).result after = (emitFiles config owners paths).result store := by
  induction paths generalizing owners with
  | nil => rfl
  | cons path rest ih =>
      obtain ⟨hpath, hrest⟩ := List.forall_mem_cons.1 h
      simp only [result_emitFiles_cons, result_loadMapping_congr config hpath, ih _ hrest]

theorem emits_of_mem_flatten {parts : List (List Artifact)}
    (hparts : List.Forall₂ (Emits store generator) paths parts) :
    ∀ artifact ∈ parts.flatten, ∃ path ∈ paths, ∃ mapping,
      mapping.IsAt store generator.config path ∧ ∃ part, Emits store generator path part ∧
        emitAll generator.config mapping Strategy.all = .ok part ∧ artifact ∈ part := by
  induction hparts with
  | nil => exact nofun
  | @cons path part rest parts hemits _ ih =>
      intro artifact hartifact
      rcases List.mem_append.1 hartifact with hmem | hmem
      · have hemission := hemits
        rw [Emits, result_emission] at hemission
        obtain ⟨mapping, hload, hemit⟩ := Except.bind_eq_ok_iff.1 hemission
        exact ⟨path, List.mem_cons_self, mapping, isAt_of_load hload, part, hemits, hemit, hmem⟩
      · obtain ⟨path', hpath', hmapping⟩ := ih artifact hmem
        exact ⟨path', List.mem_cons_of_mem _ hpath', hmapping⟩

/-- The artifacts of files with different classes are told by their classes. -/
theorem eq_of_className_eq_of_parts {parts : List (List Artifact)}
    (hparts : List.Forall₂ (Emits store generator) paths parts)
    (hclasses : paths.Pairwise (¬ SameClass · ·)) :
    ∀ artifact ∈ parts.flatten, ∀ artifact' ∈ parts.flatten,
      artifact.className = artifact'.className → artifact = artifact' := by
  intro artifact hmem artifact' hmem' hclass
  obtain ⟨path, hpath, mapping, hmapping, part, hemits, hall, hpart⟩ :=
    emits_of_mem_flatten hparts artifact hmem
  obtain ⟨path', hpath', mapping', hmapping', part', hemits', hall', hpart'⟩ :=
    emits_of_mem_flatten hparts artifact' hmem'
  have hsame : SameClass path path' := by
    obtain ⟨strategy, hemit⟩ := emitAll_eq_ok hall artifact hpart
    obtain ⟨strategy', hemit'⟩ := emitAll_eq_ok hall' artifact' hpart'
    obtain ⟨_, -, hname⟩ := emit_eq_ok hemit
    obtain ⟨_, -, hname'⟩ := emit_eq_ok hemit'
    rw [hname, hname', hmapping.name_eq, hmapping'.name_eq, Strategy.className_eq_iff] at hclass
    exact (sameClass_iff strategy).2 (Strategy.className_eq_iff.2 ⟨rfl, hclass.2⟩)
  have hsymm : Std.Symm fun path other : Path => ¬ SameClass path other :=
    ⟨fun path other h hsame => h (Eq.symm hsame)⟩
  obtain rfl : path = path' := by
    by_contra hne
    exact hclasses.forall hpath hpath' hne hsame
  rw [Emits] at hemits hemits'
  obtain rfl : part = part' := Except.ok.inj (hemits.symm.trans hemits')
  exact eq_of_className_eq hall artifact hpart artifact' hpart' hclass

theorem result_directoryEmission (hpaths : (mappingFiles directory).result store = .ok paths) :
    (generator.directoryEmission directory).result store =
      (emitFiles generator.config [] paths).result store := by
  rw [directoryEmission, Job.result_bind (onlyReads_mappingFiles directory), hpaths]
  rfl

theorem directoryEmission_eq_ok
    (h : (generator.directoryEmission directory).result store = .ok artifacts) :
    ∃ paths parts, (mappingFiles directory).result store = .ok paths ∧
      List.Forall₂ (Emits store generator) paths parts ∧ paths.Pairwise (¬ SameClass · ·) ∧
      artifacts = parts.flatten := by
  have hbind := h
  rw [directoryEmission, Job.result_bind (onlyReads_mappingFiles directory)] at hbind
  obtain ⟨paths, hpaths, -⟩ := Except.bind_eq_ok_iff.1 hbind
  obtain ⟨parts, hparts, hclasses, hresult⟩ | ⟨_, _, _, _, -, -, -, -, hfault⟩ :=
    directoryEmission_cases generator hpaths
  · exact ⟨paths, parts, hpaths, hparts, hclasses, Except.ok.inj (h.symm.trans hresult)⟩
  · rw [h] at hfault
    cases hfault

/-- Every visible entry of a directory that has been emitted is a file that is read as a mapping. -/
theorem mapping_of_directoryEmission (hlinkless : store.Linkless)
    (hok : (generator.directoryEmission directory).result store = .ok artifacts) {name : String}
    {node : Node} (hname : Path.IsName name) (hvisible : isHidden name = false)
    (hnode : store.node? (name :: store.place directory) = some node) :
    ∃ bytes source mapping, node = .file (.regular bytes) ∧ String.fromUTF8? bytes = some source ∧
      Mapping.ofSource (Mapping.nameOfPath (directory.join name)) source generator.config =
        .ok mapping := by
  obtain ⟨paths, parts, hpaths, hparts, -, -⟩ := directoryEmission_eq_ok hok
  obtain ⟨-, -, rfl⟩ := (mappingFiles_eq_ok_iff hlinkless).1 hpaths
  have hseen := mem_visibleNames_of_node? hvisible hnode
  obtain ⟨_, hemits⟩ := emits_of_mem hparts _ (List.mem_map_of_mem (List.mem_mergeSort.2 hseen))
  rw [Emits, result_emission] at hemits
  obtain ⟨mapping, hload, -⟩ := Except.bind_eq_ok_iff.1 hemits
  obtain ⟨bytes, source, hread, hsource, hof⟩ := isAt_of_load hload
  obtain ⟨location, hlocate, hfile⟩ := Store.read_eq_ok_iff.1 hread
  rw [Store.locate_eq_place hlinkless hlocate, Store.place_join_name _ _ hname, hnode] at hfile
  exact ⟨bytes, source, mapping, Option.some.inj hfile, hsource, hof⟩

/-! ### Where the output shows -/

/-- What is written for a generator shows in a directory. -/
inductive ShowsIn (generator : Generator) (store : Store) (directory : Path) : Prop
  /-- Units are put into the directory. -/
  | inside (tree : UnitTree)
      (hplace : store.place (tree.directory generator.layout) = store.place directory) :
      ShowsIn generator store directory
  /-- The way to the units leads through the directory, and the next name on it is not hidden. -/
  | below (tree : UnitTree) (name : String) (hvisible : isHidden name = false)
      (henters : store.Enters (tree.directory generator.layout) (store.place directory) name) :
      ShowsIn generator store directory

/-- What does not show leaves all that is visible in the directory as it was. -/
theorem node?_of_not_showsIn (hlinkless : store.Linkless)
    (hemitted : ∀ artifact ∈ artifacts, IsEmitted artifact)
    (hwrites : Writes store
      (UnitFile.ofArtifacts generator.layout generator.config.indent artifacts) after)
    (hshows : ¬ generator.ShowsIn store directory) {name : String} (hvisible : isHidden name = false) :
    after.node? (name :: store.place directory) = store.node? (name :: store.place directory) := by
  have hnames : ∀ unit ∈ UnitFile.ofArtifacts generator.layout generator.config.indent artifacts,
      IsUnitName unit.name := fun unit => UnitFile.isUnitName hemitted
  have hother : ∀ unit ∈ UnitFile.ofArtifacts generator.layout generator.config.indent artifacts,
      store.place unit.path ≠ name :: store.place directory := by
    intro unit hunit hplace
    rw [UnitFile.place_path (hnames unit hunit), List.cons.injEq] at hplace
    obtain ⟨artifact, -, tree, rfl⟩ := UnitFile.mem_ofArtifacts.1 hunit
    exact hshows (.inside tree hplace.2)
  rcases hwrites.node?_cases hlinkless hnames hother with
    hsame | ⟨-, -, unit, hunit, above, found, heq, henters⟩
  · exact hsame
  · obtain ⟨rfl, rfl⟩ := List.cons.inj heq
    have hname := (hnames unit hunit).isName
    obtain ⟨artifact, -, tree, rfl⟩ := UnitFile.mem_ofArtifacts.1 hunit
    rw [UnitFile.path, Path.directory_join _ hname, Store.enters_opened] at henters
    exact absurd (.below tree name hvisible henters) hshows

/-- When units that show have been written, the directory is not one of mappings any more. -/
theorem directoryEmission_ne_ok_of_showsIn (htarget : generator.config.target = Target.standard)
    (hfrom : ∀ artifact ∈ artifacts, artifact.IsFrom store generator.config) (hne : artifacts ≠ [])
    (hcontinues : store.Continues after)
    (hready : ∀ unit ∈ UnitFile.ofArtifacts generator.layout generator.config.indent artifacts,
      Ready after unit)
    (hshows : generator.ShowsIn store directory) (found : List Artifact) :
    (generator.directoryEmission directory).result after ≠ .ok found := by
  intro hok
  obtain ⟨artifact, hartifact⟩ := List.exists_mem_of_ne_nil _ hne
  obtain ⟨_, mapping, strategy, -, hemit⟩ := hfrom artifact hartifact
  let unit (tree : UnitTree) := tree.unit generator.layout generator.config.indent artifact
  have hname (tree : UnitTree) : IsUnitName (unit tree).name := by
    obtain ⟨_, -, hclass⟩ := emit_eq_ok hemit
    have hunit := tree.isUnitName_fileName strategy mapping
    rwa [← hclass] at hunit
  have hunit (tree : UnitTree) : Ready after (unit tree) :=
    hready _ (UnitFile.mem_ofArtifacts.2 ⟨artifact, hartifact, tree, rfl⟩)
  cases hshows with
  | inside tree hplace =>
      -- The unit is read as a mapping, which it is not.
      have hnode := (hunit tree).file
      have hlocation : after.place (unit tree).path = (unit tree).name :: after.place directory := by
        rw [UnitFile.place_path (hname tree), hcontinues.place_eq, hcontinues.place_eq, ← hplace]
        rfl
      rw [hlocation] at hnode
      have hvisible : isHidden (unit tree).name = false := by simp [isHidden, (hname tree).head?]
      obtain ⟨_, source, _, hfile, hsource, hof⟩ :=
        mapping_of_directoryEmission hcontinues.linkless hok (hname tree).isName hvisible hnode
      obtain rfl := Content.regular.inj (Node.file.inj hfile)
      obtain rfl := Option.some.inj ((String.fromUTF8?_toUTF8 _).symm.trans hsource)
      have hincluded : '\n' ∉ generator.config.target.includePrefix.toList := by
        rw [htarget]
        decide
      exact Mapping.ofSource_ne_ok
        (tree.secondLineEmpty_text hemit hincluded generator.config.indent) _ _ _ hof
  | below tree name hvisible henters =>
      -- A directory stands where there should be a file.
      have hroom := (hunit tree).hasRoom.hasDirectory
      rw [UnitFile.path, Path.directory_join _ (hname tree).isName] at hroom
      have hentered := (Store.enters_iff_of_home hcontinues.home).2 (Store.enters_opened.2 henters)
      have hnode := hroom.node?_of_enters hcontinues.linkless hentered
      rw [← hcontinues.place_eq] at hnode
      obtain ⟨_, _, -, hisName, -⟩ := henters
      obtain ⟨_, _, _, hfile, -⟩ :=
        mapping_of_directoryEmission hcontinues.linkless hok hisName hvisible hnode
      cases hfile

/-- What a run over a directory that has succeeded has found and written. -/
theorem perform_generateDirectory_eq_ok
    (hrun : store.perform (generator.generateDirectory directory) = (.ok written, after)) :
    ∃ paths artifacts, (mappingFiles directory).result store = .ok paths ∧
      (generator.directoryEmission directory).result store = .ok artifacts ∧
      (∀ artifact ∈ artifacts, artifact.IsFrom store generator.config) ∧
      (∀ artifact ∈ artifacts, ∀ artifact' ∈ artifacts,
        artifact.className = artifact'.className → artifact = artifact') ∧
      store.perform (generator.write artifacts) = (.ok written, after) := by
  have hreads := onlyReads_directoryEmission generator directory
  obtain ⟨artifacts, hemission, hwrite⟩ := perform_emission_write_eq_ok hreads hrun
  have hfrom := (finds_directoryEmission generator directory).ends_of_result hemission
  obtain ⟨paths, parts, hpaths, hparts, hclasses, rfl⟩ := directoryEmission_eq_ok hemission
  exact ⟨paths, _, hpaths, hemission, hfrom, eq_of_className_eq_of_parts hparts hclasses, hwrite⟩

/-- A run can be repeated if it has written nothing that shows in its directory. -/
theorem generateDirectory_of_not_showsIn (hplain : store.Plain)
    (hrun : store.perform (generator.generateDirectory directory) = (.ok written, after))
    (hshows : written = [] ∨ ¬ generator.ShowsIn store directory) :
    ∃ again, after.perform (generator.generateDirectory directory) = (.ok written, again) ∧
      after.SameTree again := by
  have hlinkless := hplain.linkless
  have hreads := onlyReads_directoryEmission generator directory
  obtain ⟨paths, artifacts, hpaths, hemission, hfrom, hclass, hwrite⟩ :=
    perform_generateDirectory_eq_ok hrun
  have hemitted (artifact : Artifact) (hmem : artifact ∈ artifacts) := (hfrom artifact hmem).isEmitted
  obtain ⟨rfl, hwrites⟩ := perform_writeArtifacts_eq_ok_iff.1 hwrite
  rcases hshows with hnil | hshows
  · rw [List.map_eq_nil_iff] at hnil
    rw [hnil] at hwrites
    obtain rfl := writes_nil_iff.1 hwrites
    exact ⟨after, hrun, .refl after⟩
  · have hsame (name : String) (hvisible : isHidden name = false) :=
      node?_of_not_showsIn hlinkless hemitted hwrites hshows hvisible
    obtain ⟨hpaths', hread⟩ :=
      mappingFiles_of_visible hplain (Store.continues_perform hlinkless hwrite) hsame hpaths
    have hemission' : (generator.directoryEmission directory).result after = .ok artifacts := by
      rw [result_directoryEmission hpaths', result_emitFiles_congr _ _ hread,
        ← result_directoryEmission hpaths, hemission]
    obtain ⟨again, hagain, hsame⟩ := writeArtifacts_again hemitted hclass hlinkless hwrite
    refine ⟨again, ?_, hsame⟩
    rw [generateDirectory, perform_write_of_result generator hreads hemission']
    exact hagain

/-- A run that has written what shows in its directory fails when it is repeated. -/
theorem generateDirectory_of_showsIn (htarget : generator.config.target = Target.standard)
    (hlinkless : store.Linkless)
    (hrun : store.perform (generator.generateDirectory directory) = (.ok written, after))
    (hne : written ≠ []) (hshows : generator.ShowsIn store directory) :
    ∃ fault, after.perform (generator.generateDirectory directory) = (.error fault, after) := by
  obtain ⟨-, artifacts, -, -, hfrom, hclass, hwrite⟩ := perform_generateDirectory_eq_ok hrun
  have hemitted (artifact : Artifact) (hmem : artifact ∈ artifacts) := (hfrom artifact hmem).isEmitted
  obtain ⟨rfl, -⟩ := perform_writeArtifacts_eq_ok_iff.1 hwrite
  have hnot := directoryEmission_ne_ok_of_showsIn htarget hfrom (by simpa using hne)
    (Store.continues_perform hlinkless hwrite)
    (ready_of_writeArtifacts hemitted hclass hlinkless hwrite) hshows
  cases hresult : (generator.directoryEmission directory).result after with
  | ok found => exact absurd hresult (hnot found)
  | error fault =>
      refine ⟨fault, ?_⟩
      rw [generateDirectory, Store.perform_bind,
        Job.perform_eq_of_isReading (onlyReads_directoryEmission generator directory), hresult]

/-! ### A tunnel -/

/-- Two directories with the same mapping. -/
def twoTunnels : Store where
  home := []
  nodes := [(["in"], .directory), (["out"], .directory),
    (["Tun", "in"], .file (.regular "protocols\n0x4 IPv4Analyzer\n".toUTF8)),
    (["Tun", "out"], .file (.regular "protocols\n0x4 IPv4Analyzer\n".toUTF8))]

/-- The output goes below one of them. -/
def intoOut : Generator := ⟨{}, ⟨"out"⟩⟩

/-- What is made of the mapping, one artifact for each strategy. -/
def tunnelArtifacts : List Artifact :=
  [.chain (ChainPlan.ofMapping tunnels), .switch (SwitchPlan.ofMapping tunnels),
    .array ⟨4, #[Slot.ofEntry ⟨4, "IPv4Analyzer", 2⟩], #[some 0]⟩].map
      (Artifact.ofPlan Target.standard "Tun")

theorem emitAll_tunnels : emitAll {} tunnels Strategy.all = .ok tunnelArtifacts := by
  have hsorted : TablePlan.sortedSlots tunnels = [Slot.ofEntry ⟨4, "IPv4Analyzer", 2⟩] :=
    List.mergeSort_singleton _
  have htable : TablePlan.ofMapping tunnels standardTableLimit =
      .ok ⟨4, #[Slot.ofEntry ⟨4, "IPv4Analyzer", 2⟩], #[some 0]⟩ := by
    rw [TablePlan.ofMapping, hsorted]
    rfl
  have harray : Artifact.emit tunnels .array {} =
      .ok (Artifact.ofPlan Target.standard "Tun"
        (.array ⟨4, #[Slot.ofEntry ⟨4, "IPv4Analyzer", 2⟩], #[some 0]⟩)) := by
    rw [Artifact.emit, Plan.ofMapping]
    exact congrArg (fun result => (Except.map Plan.array result).map _) htable
  simp only [emitAll, Strategy.all, List.mapM_cons, List.mapM_nil, harray]
  rfl

theorem plain_twoTunnels : twoTunnels.Plain where
  linkless := Store.linkless_of_nodes (by decide)
  listedOnce := by
    unfold Store.ListedOnce
    decide
  isName := Store.isName_of_nodes (by decide +kernel)

/-- The mapping in either directory is read and emitted alike. -/
theorem perform_twoTunnels {directory : Path} (h : directory = ⟨"in"⟩ ∨ directory = ⟨"out"⟩) :
    twoTunnels.perform (intoOut.generateDirectory directory) =
      twoTunnels.perform (intoOut.write tunnelArtifacts) := by
  have hdirectory : twoTunnels.HasDirectory directory := by
    rcases h with rfl | rfl <;> exact ⟨by rfl, by rfl⟩
  have hvisible : visibleNames twoTunnels (twoTunnels.place directory) = ["Tun"] := by
    rcases h with rfl | rfl <;> decide +kernel
  have hread : twoTunnels.read (directory.join "Tun") =
      .ok "protocols\n0x4 IPv4Analyzer\n".toUTF8 := by
    rcases h with rfl | rfl <;> rfl
  have hname : Mapping.nameOfPath (directory.join "Tun") = tunnels.name := by
    rcases h with rfl | rfl <;> decide +kernel
  have hpaths : (mappingFiles directory).result twoTunnels = .ok [directory.join "Tun"] := by
    rw [mappingFiles_eq_ok_iff plain_twoTunnels.linkless, hvisible, List.mergeSort_singleton]
    refine ⟨hdirectory, fun name hname => ?_, rfl⟩
    rw [List.mem_singleton.1 hname]
    exact Store.inspect_of_read hread
  have hentries : Mapping.readEntries tunnels.name "protocols\n0x4 IPv4Analyzer\n" {} =
      .ok tunnels.entries := by rfl
  have hmapping : tunnels.IsAt twoTunnels {} (directory.join "Tun") :=
    ⟨_, _, hread, String.fromUTF8?_toUTF8 _, hname ▸ Mapping.ofSource_of_readEntries hentries⟩
  have hemits : Emits twoTunnels intoOut (directory.join "Tun") tunnelArtifacts :=
    perform_emission_of_isAt hmapping emitAll_tunnels
  have hfree : ∀ other ∈ ([] : List Path), ¬ SameClass other (directory.join "Tun") :=
    List.forall_mem_nil _
  have hrun := emitFiles_of_free
    (requireFile_eq_ok_iff.2 (Store.inspect_of_read hread)) hemits hfree []
  refine perform_write_of_result _ (onlyReads_directoryEmission _ _) ?_
  rw [result_directoryEmission hpaths]
  exact hrun

theorem perform_write_twoTunnels : ∃ written after, written ≠ [] ∧
    twoTunnels.perform (intoOut.write tunnelArtifacts) = (.ok written, after) := by
  have hsucceeds : (twoTunnels.perform (intoOut.write tunnelArtifacts)).1.toBool := by
    decide +kernel
  rcases hrun : twoTunnels.perform (intoOut.write tunnelArtifacts) with ⟨fault | written, after⟩
  · rw [hrun] at hsucceeds
    cases hsucceeds
  · obtain ⟨hwritten, -⟩ := perform_writeArtifacts_eq_ok_iff.1 hrun
    exact ⟨written, after, hwritten ▸ List.cons_ne_nil _ _, rfl⟩

/-- The output shows in the directory that it goes below. -/
theorem showsIn_twoTunnels : intoOut.ShowsIn twoTunnels ⟨"out"⟩ := by
  refine .below .interfaces "include" (by decide)
    ⟨["out"], ["dispatchers", "metaprogramming"], by decide +kernel, ?_, by decide +kernel⟩
  exact UnitTree.interfaces.isName_top

theorem not_showsIn_twoTunnels : ¬ intoOut.ShowsIn twoTunnels ⟨"in"⟩ := by
  have hin : twoTunnels.place ⟨"in"⟩ = ["in"] := by decide +kernel
  rintro (⟨tree, hplace⟩ | ⟨tree, name, -, henters⟩)
  · revert hplace
    cases tree <;> decide +kernel
  · obtain ⟨sub, hsub, hpieces⟩ : ∃ sub, (sub = "include" ∨ sub = "src") ∧
        Store.piecesOf (tree.directory intoOut.layout).text =
          ["out", sub, "dispatchers", "metaprogramming"] := by
      cases tree with
      | interfaces => exact ⟨"include", .inl rfl, by decide +kernel⟩
      | implementations => exact ⟨"src", .inr rfl, by decide +kernel⟩
    have hstart : Store.start twoTunnels.home (tree.directory intoOut.layout).text = [] := ite_self _
    rw [Store.Enters, hpieces, hstart, hin] at henters
    rcases hsub with rfl | rfl <;>
      simp [Location.enters_cons_iff, Location.not_enters_nil, Location.enter] at henters

/-! ### Generating twice -/

/-- Generation from a directory is repeatable unless the output shows there. Take a store like a file
system without links, a generator with the standard target, any output root and any directory, and a
run over the directory that has succeeded. If it has written nothing, or what it has written does not
show in the directory, then the run can be repeated with the same result, and leaves the same tree
behind. If it has written something that shows in the directory, then the run fails when it is
repeated, and changes nothing. -/
theorem generateDirectory_again (generator : Generator)
    (htarget : generator.config.target = Target.standard) (directory : Path) {store after : Store}
    {written : List Written} (hplain : store.Plain)
    (hrun : store.perform (generator.generateDirectory directory) = (.ok written, after)) :
    (written = [] ∨ ¬ generator.ShowsIn store directory →
      ∃ again, after.perform (generator.generateDirectory directory) = (.ok written, again) ∧
        after.SameTree again) ∧
      (written ≠ [] → generator.ShowsIn store directory →
        ∃ fault, after.perform (generator.generateDirectory directory) = (.error fault, after)) :=
  ⟨generateDirectory_of_not_showsIn hplain hrun,
    generateDirectory_of_showsIn htarget hplain.linkless hrun⟩

/-- Both happen to the tunnels: generation from one of them can be repeated, and generation from the
other one cannot. -/
theorem generateDirectory_again_tunnels :
    twoTunnels.Plain ∧ intoOut.config.target = Target.standard ∧
      ∃ written after, written ≠ [] ∧
        twoTunnels.perform (intoOut.generateDirectory ⟨"in"⟩) = (.ok written, after) ∧
        (∃ again, after.perform (intoOut.generateDirectory ⟨"in"⟩) = (.ok written, again) ∧
          after.SameTree again) ∧
        twoTunnels.perform (intoOut.generateDirectory ⟨"out"⟩) = (.ok written, after) ∧
        ∃ fault, after.perform (intoOut.generateDirectory ⟨"out"⟩) = (.error fault, after) := by
  obtain ⟨written, after, hne, hwrite⟩ := perform_write_twoTunnels
  have hin := (perform_twoTunnels (.inl rfl)).trans hwrite
  have hout := (perform_twoTunnels (.inr rfl)).trans hwrite
  exact ⟨plain_twoTunnels, rfl, written, after, hne, hin,
    (generateDirectory_again _ rfl _ plain_twoTunnels hin).1 (.inr not_showsIn_twoTunnels), hout,
    (generateDirectory_again _ rfl _ plain_twoTunnels hout).2 hne showsIn_twoTunnels⟩

/-- Not every run over a directory can be repeated: the output of this one goes below the directory
of the mapping. -/
theorem not_generateDirectory_twice :
    twoTunnels.Plain ∧ intoOut.config.target = Target.standard ∧
      ∃ written after,
        twoTunnels.perform (intoOut.generateDirectory ⟨"out"⟩) = (.ok written, after) ∧
        ¬ ∃ again, after.perform (intoOut.generateDirectory ⟨"out"⟩) = (.ok written, again) ∧
          after.SameTree again := by
  obtain ⟨written, after, hne, hwrite⟩ := perform_write_twoTunnels
  have hrun := (perform_twoTunnels (.inr rfl)).trans hwrite
  refine ⟨plain_twoTunnels, rfl, written, after, hrun, ?_⟩
  rintro ⟨again, hagain, -⟩
  obtain ⟨fault, hfails⟩ :=
    generateDirectory_of_showsIn rfl plain_twoTunnels.linkless hrun hne showsIn_twoTunnels
  rw [hfails] at hagain
  cases hagain

end Generator

end Switchboard
