import Switchboard.Generator
import Switchboard.Proofs.Disk.Requests
import Switchboard.Proofs.Disk.Runs
import Switchboard.Proofs.Mapping.Faults
import Switchboard.Proofs.Output.Directories

/-!
Generation is all or nothing up to the point where it writes. A run has two parts: the emission, which
only reads, whatever it is answered, and the writing of the artifacts it returns. What the emission
fails with is never a fault of writing, and what the writing fails with always is. So the fault of a
run tells which part it ended in, and a run that ends in the first part has left everything as it was.
-/

namespace Switchboard

open Disk

/-- The actions of writing units. -/
def Disk.Action.isOfWriting : Action → Bool
  | makeDirectory | createTemporary | write => true
  | inspect | read | list | remove => false

/-- Whether the fault is raised when units are written. -/
def Fault.isOfWriting (fault : Fault) : Bool :=
  fault.action?.any (·.isOfWriting)

theorem Fault.isOfWriting_of_action? {fault : Fault} (h : fault.action? = none) :
    fault.isOfWriting = false := by
  rw [isOfWriting, h]
  rfl

/-- The job only reads, and fails with no fault of writing. -/
abbrev OnlyReads {α : Type} (job : Job α) : Prop :=
  Job.Keeps (·.isReading) (·.isOfWriting = false) job

/-- The job fails with faults of writing only. -/
abbrev OnlyFailsWriting {α : Type} (job : Job α) : Prop :=
  Job.Keeps (fun _ => True) (·.isOfWriting = true) job

/-- What needs no file system keeps to reading if its faults do not point at it. -/
theorem onlyReads_ofExcept {α : Type} {result : Except Fault α}
    (h : ∀ fault, result = .error fault → fault.action? = none) :
    OnlyReads (Job.ofExcept result) :=
  Job.keeps_ofExcept fun fault hfault => Fault.isOfWriting_of_action? (h fault hfault)

theorem onlyReads_attempt {action : Action} {path : Path} {request : Request}
    (h : request.isReading) (haction : action.isOfWriting = false) :
    OnlyReads (Job.attempt action path (Script.request request)) :=
  Job.keeps_attempt (Script.keeps_request h) fun _ => haction

/-! ### Reading mappings -/

theorem keeps_inspectPath {asks : Request → Prop} {path : Path} (h : asks (.inspect path)) :
    Job.Keeps asks (·.isOfWriting = false) (inspectPath path) := by
  refine (Job.keeps_lift (Script.keeps_request h)).bind fun answer => ?_
  cases answer with
  | ok kind => exact Job.keeps_pure kind
  | error cause => cases cause <;> exact Job.keeps_fail rfl

theorem keeps_requireFile {asks : Request → Prop} {path : Path} (h : asks (.inspect path)) :
    Job.Keeps asks (·.isOfWriting = false) (requireFile path) := by
  refine (keeps_inspectPath h).bind fun kind => ?_
  cases kind with
  | file => exact Job.keeps_pure _
  | directory | link | special => exact Job.keeps_fail rfl

theorem keeps_requireDirectory {asks : Request → Prop} {path : Path} (h : asks (.inspect path)) :
    Job.Keeps asks (·.isOfWriting = false) (requireDirectory path) := by
  refine (keeps_inspectPath h).bind fun kind => ?_
  cases kind with
  | directory => exact Job.keeps_pure _
  | file | link | special => exact Job.keeps_fail rfl

theorem keeps_loadMapping {asks : Request → Prop} (config : Config) {path : Path}
    (h : asks (.read path)) : Job.Keeps asks (·.isOfWriting = false) (Mapping.load config path) := by
  refine (Job.keeps_attempt (Script.keeps_request h) fun _ => rfl).bind fun bytes => ?_
  cases String.fromUTF8? bytes with
  | none => exact Job.keeps_fail rfl
  | some source =>
      exact Job.keeps_ofExcept fun fault hfault =>
        Fault.isOfWriting_of_action? (Mapping.action?_of_ofSource hfault)

theorem onlyReads_inspectPath (path : Path) : OnlyReads (inspectPath path) :=
  keeps_inspectPath rfl

theorem onlyReads_requireFile (path : Path) : OnlyReads (requireFile path) :=
  keeps_requireFile rfl

theorem onlyReads_requireDirectory (path : Path) : OnlyReads (requireDirectory path) :=
  keeps_requireDirectory rfl

theorem onlyReads_loadMapping (config : Config) (path : Path) : OnlyReads (Mapping.load config path) :=
  keeps_loadMapping config rfl

theorem onlyReads_mappingFiles (directory : Path) : OnlyReads (mappingFiles directory) := by
  have hlist : (Request.list directory).isReading := rfl
  refine (onlyReads_requireDirectory directory).bind fun _ => ?_
  refine (onlyReads_attempt hlist rfl).bind fun entries => ?_
  refine (Job.keeps_forM fun name => onlyReads_requireFile (directory.join name)).bind fun _ => ?_
  exact Job.keeps_pure _

/-! ### Emission -/

namespace Generator

theorem onlyReads_load (generator : Generator) (path : Path) : OnlyReads (generator.load path) :=
  (onlyReads_requireFile path).bind fun _ => onlyReads_loadMapping generator.config path

theorem action?_of_emitAll {config : Config} {mapping : Mapping} {strategies : List Strategy}
    {fault : Fault} (h : emitAll config mapping strategies = .error fault) :
    fault.action? = none := by
  obtain ⟨strategy, -, hemit⟩ := Except.exists_of_mapM_eq_error h
  exact Artifact.action?_of_emit hemit

theorem onlyReads_emission (generator : Generator) (path : Path) (strategies : List Strategy) :
    OnlyReads (generator.emission path strategies) :=
  (onlyReads_load generator path).bind fun _ => onlyReads_ofExcept fun _ => action?_of_emitAll

theorem onlyReads_render (generator : Generator) (path : Path) (strategy : Strategy) :
    OnlyReads (generator.render path strategy) :=
  (onlyReads_load generator path).bind fun _ => onlyReads_ofExcept fun _ => Artifact.action?_of_emit

theorem action?_of_emitOwned {config : Config} {owners : Owners} {path : Path} {mapping : Mapping}
    {strategies : List Strategy} {fault : Fault}
    (h : emitOwned config owners path mapping strategies = .error fault) :
    fault.action? = none := by
  induction strategies generalizing fault with
  | nil => cases h
  | cons strategy rest ih =>
      rw [emitOwned] at h
      rcases Except.bind_eq_error_iff.1 h with hemit | ⟨artifact, -, hrest⟩
      · exact Artifact.action?_of_emit hemit
      · split at hrest
        · cases hrest
          rfl
        · rcases Except.bind_eq_error_iff.1 hrest with hrest | ⟨artifacts, -, hpure⟩
          · exact ih hrest
          · cases hpure

theorem keeps_emitFiles {asks : Request → Prop} (config : Config) (owners : Owners)
    {paths : List Path} (h : ∀ path, asks (.read path)) :
    Job.Keeps asks (·.isOfWriting = false) (emitFiles config owners paths) := by
  induction paths generalizing owners with
  | nil => exact Job.keeps_pure _
  | cons path rest ih =>
      rw [emitFiles]
      refine (keeps_loadMapping config (h path)).bind fun mapping => ?_
      have howned : Job.Keeps asks (·.isOfWriting = false)
          (Job.ofExcept (emitOwned config owners path mapping Strategy.all)) :=
        Job.keeps_ofExcept fun fault hfault =>
          Fault.isOfWriting_of_action? (action?_of_emitOwned hfault)
      exact howned.bind fun artifacts => (ih _).bind fun others => Job.keeps_pure _

theorem onlyReads_emitFiles (config : Config) (owners : Owners) (paths : List Path) :
    OnlyReads (emitFiles config owners paths) :=
  keeps_emitFiles config owners fun _ => rfl

theorem onlyReads_directoryEmission (generator : Generator) (directory : Path) :
    OnlyReads (generator.directoryEmission directory) :=
  (onlyReads_mappingFiles directory).bind fun paths => onlyReads_emitFiles generator.config [] paths

end Generator

/-! ### Writing -/

namespace Output

variable {asks : Request → Prop}

theorem keeps_abandon {temporary : Path} {fault : Fault} (hremove : asks (.remove temporary))
    (h : fault.isOfWriting = true) :
    Job.Keeps asks (·.isOfWriting = true) (abandon temporary fault) :=
  (Job.keeps_lift (Script.keeps_request hremove)).bind fun _ => Job.keeps_fail h

theorem keeps_writeUnit (hasks : ∀ request : Request, request.isListing = false → asks request)
    (path : Path) (text : String) : Job.Keeps asks (·.isOfWriting = true) (writeUnit path text) := by
  have hensure : (ensureDirectory path.directory).Keeps asks fun _ => True :=
    keeps_ensureDirectories fun _ _ => ⟨hasks _ rfl, hasks _ rfl⟩
  refine (Job.keeps_attempt hensure fun _ => rfl).bind fun _ => ?_
  have hcreate := Script.keeps_request (hasks (.createTemporary path.directory) rfl)
  refine (Job.keeps_attempt hcreate fun _ => rfl).bind fun temporary => ?_
  refine (Job.keeps_lift (Script.keeps_request (hasks _ rfl))).bind fun written => ?_
  cases written with
  | error cause => exact keeps_abandon (hasks _ rfl) rfl
  | ok _ =>
      refine (Job.keeps_lift (Script.keeps_request (hasks _ rfl))).bind fun renamed => ?_
      cases renamed with
      | error cause => exact keeps_abandon (hasks _ rfl) rfl
      | ok _ => exact Job.keeps_pure _

/-- Whatever happens, nothing is listed when artifacts are written, and what fails is writing. -/
theorem keeps_writeArtifacts (hasks : ∀ request : Request, request.isListing = false → asks request)
    (layout : Layout) (indent : Indent) (artifacts : List Artifact) :
    Job.Keeps asks (·.isOfWriting = true) (writeArtifacts layout indent artifacts) := by
  refine Job.keeps_mapM fun artifact => ?_
  refine (keeps_writeUnit hasks _ _).bind fun _ => ?_
  exact (keeps_writeUnit hasks _ _).bind fun _ => Job.keeps_pure _

theorem onlyFailsWriting_writeArtifacts (layout : Layout) (indent : Indent)
    (artifacts : List Artifact) : OnlyFailsWriting (writeArtifacts layout indent artifacts) :=
  keeps_writeArtifacts (fun _ _ => trivial) layout indent artifacts

end Output

/-! ### Runs -/

namespace Generator

/-- A run whose emission only reads fails in the part that its fault tells. In the emission nothing
has been touched, and the writing starts from a store that nothing has touched. -/
theorem perform_emission_write {emission : Job (List Artifact)} (hemission : OnlyReads emission)
    (generator : Generator) {store store' : Store} {fault : Fault}
    (hrun : store.perform (emission >>= generator.write) = (.error fault, store')) :
    (fault.isOfWriting = false → store' = store) ∧
      (fault.isOfWriting = true ↔ ∃ artifacts, store.perform emission = (.ok artifacts, store) ∧
        store.perform (generator.write artifacts) = (.error fault, store')) := by
  -- Whichever way the emission ends, the store after it is the store before it.
  have hstore : (store.perform emission).2 = store := hemission.perform_of_isReading store
  rw [Store.perform_bind] at hrun
  rcases hemit : store.perform emission with ⟨result, found⟩
  rw [hemit] at hrun hstore
  obtain rfl : found = store := hstore
  cases result with
  | error raised =>
      rw [Prod.mk.injEq, Except.error.injEq] at hrun
      obtain ⟨rfl, rfl⟩ := hrun
      have hreading : raised.isOfWriting = false := hemission.fault_perform hemit
      refine ⟨fun _ => rfl, fun hwriting => ?_, ?_⟩
      · rw [hreading] at hwriting
        cases hwriting
      · rintro ⟨artifacts, hartifacts, -⟩
        cases hartifacts
  | ok artifacts =>
      have hwriting : fault.isOfWriting = true :=
        (Output.onlyFailsWriting_writeArtifacts _ _ artifacts).fault_perform hrun
      refine ⟨fun hreading => ?_, fun _ => ⟨artifacts, rfl, hrun⟩, fun _ => hwriting⟩
      rw [hwriting] at hreading
      cases hreading

/-- The same holds of a run in which requests were refused. -/
theorem run_emission_write {emission : Job (List Artifact)} (hemission : OnlyReads emission)
    (generator : Generator) {system : System} {store store' : Store} {fault : Fault}
    (hrun : Script.Run system store (emission >>= generator.write).run store'
      (.done (.error fault))) :
    (fault.isOfWriting = false → store' = store) ∧
      (fault.isOfWriting = true ↔ ∃ artifacts,
        Script.Run system store emission.run store (.done (.ok artifacts)) ∧
          Script.Run system store (generator.write artifacts).run store' (.done (.error fault))) := by
  have hwrites (artifacts : List Artifact) {store : Store}
      (hwrite : Script.Run system store (generator.write artifacts).run store'
        (.done (.error fault))) : fault.isOfWriting = true :=
    (Output.onlyFailsWriting_writeArtifacts _ _ artifacts).ends_of_run hwrite
  rcases Job.run_bind_error hrun with hemit | ⟨middle, artifacts, hemit, hwrite⟩
  · have hreading : fault.isOfWriting = false := Script.Keeps.ends_of_run hemission hemit
    refine ⟨fun _ => (hemission.finds store' _ hemit).1, fun hwriting => ?_, ?_⟩
    · rw [hreading] at hwriting
      cases hwriting
    · rintro ⟨artifacts, -, hwrite⟩
      exact hwrites artifacts hwrite
  · obtain rfl : middle = store := (hemission.finds middle _ hemit).1
    have hwriting := hwrites artifacts hwrite
    refine ⟨fun hreading => ?_, fun _ => ⟨artifacts, hemit, hwrite⟩, fun _ => hwriting⟩
    rw [hwriting] at hreading
    cases hreading

/-- Generation is all or nothing before it writes. Whatever stands in the store, whether one mapping
is generated for some strategies or a whole directory: a run that fails with anything but a fault of
writing leaves the store exactly as it was. And it fails with a fault of writing in one case only,
which is that all artifacts of the run were emitted, without a change to the store, and writing them
raised that fault. This is so in a store, and on a file system that may refuse any request. -/
theorem generation_all_or_nothing (store : Store) (generator : Generator) :
    (∀ path strategies fault store',
      store.perform (generator.generate path strategies) = (.error fault, store') →
      (fault.isOfWriting = false → store' = store) ∧
        (fault.isOfWriting = true ↔ ∃ artifacts,
          store.perform (generator.emission path strategies) = (.ok artifacts, store) ∧
            store.perform (generator.write artifacts) = (.error fault, store'))) ∧
      (∀ directory fault store',
        store.perform (generator.generateDirectory directory) = (.error fault, store') →
        (fault.isOfWriting = false → store' = store) ∧
          (fault.isOfWriting = true ↔ ∃ artifacts,
            store.perform (generator.directoryEmission directory) = (.ok artifacts, store) ∧
              store.perform (generator.write artifacts) = (.error fault, store'))) ∧
      ∀ system : System,
        (∀ path strategies fault store',
          Script.Run system store (generator.generate path strategies).run store'
            (.done (.error fault)) →
          (fault.isOfWriting = false → store' = store) ∧
            (fault.isOfWriting = true ↔ ∃ artifacts,
              Script.Run system store (generator.emission path strategies).run store
                  (.done (.ok artifacts)) ∧
                Script.Run system store (generator.write artifacts).run store'
                  (.done (.error fault)))) ∧
        ∀ directory fault store',
          Script.Run system store (generator.generateDirectory directory).run store'
            (.done (.error fault)) →
          (fault.isOfWriting = false → store' = store) ∧
            (fault.isOfWriting = true ↔ ∃ artifacts,
              Script.Run system store (generator.directoryEmission directory).run store
                  (.done (.ok artifacts)) ∧
                Script.Run system store (generator.write artifacts).run store'
                  (.done (.error fault))) := by
  refine ⟨?_, ?_, fun system => ⟨?_, ?_⟩⟩
  · intro path strategies fault store' hrun
    exact perform_emission_write (onlyReads_emission generator path strategies) generator hrun
  · intro directory fault store' hrun
    exact perform_emission_write (onlyReads_directoryEmission generator directory) generator hrun
  · intro path strategies fault store' hrun
    exact run_emission_write (onlyReads_emission generator path strategies) generator hrun
  · intro directory fault store' hrun
    exact run_emission_write (onlyReads_directoryEmission generator directory) generator hrun

/-- The fault of a result. -/
def faultOf? {α : Type} : Except Fault α → Option Fault
  | .ok _ => none
  | .error fault => some fault

theorem perform_of_faultOf? {α : Type} {job : Job α} {store : Store} {fault : Fault}
    (h : faultOf? (store.perform job).1 = some fault) :
    ∃ store', store.perform job = (.error fault, store') := by
  rcases hrun : store.perform job with ⟨result, store'⟩
  rw [hrun] at h
  cases result with
  | ok value => cases h
  | error found =>
      cases h
      exact ⟨store', rfl⟩

/-- A directory with one mapping, which has no entries. -/
def withoutEntries : Store where
  home := []
  nodes := [(["maps"], .directory), (["ip", "maps"], .file (.regular "protocols\n".toUTF8))]

/-- Two strategies lay the mapping out and the third cannot, so nothing is written for any of them. -/
theorem generation_withoutEntries :
    ∃ store₁ store₂,
      withoutEntries.perform (generate ⟨{}, ⟨"."⟩⟩ ⟨"maps/ip"⟩ [.switch, .chain, .array]) =
        (.error (.emptyMapping "ip"), store₁) ∧
      withoutEntries.perform (generateDirectory ⟨{}, ⟨"."⟩⟩ ⟨"maps"⟩) =
        (.error (.emptyMapping "ip"), store₂) ∧
      (Fault.emptyMapping "ip").isOfWriting = false ∧
      store₁ = withoutEntries ∧ store₂ = withoutEntries := by
  obtain ⟨store₁, hfile⟩ := perform_of_faultOf?
    (show faultOf? (withoutEntries.perform
      (generate ⟨{}, ⟨"."⟩⟩ ⟨"maps/ip"⟩ [.switch, .chain, .array])).1 = some (.emptyMapping "ip") by
        decide +kernel)
  obtain ⟨store₂, hdirectory⟩ := perform_of_faultOf?
    (show faultOf? (withoutEntries.perform (generateDirectory ⟨{}, ⟨"."⟩⟩ ⟨"maps"⟩)).1 =
      some (.emptyMapping "ip") by decide +kernel)
  obtain ⟨hgenerate, hgenerateDirectory, -⟩ :=
    generation_all_or_nothing withoutEntries ⟨{}, ⟨"."⟩⟩
  refine ⟨store₁, store₂, hfile, hdirectory, rfl, ?_, ?_⟩
  · exact (hgenerate _ _ _ _ hfile).1 rfl
  · exact (hgenerateDirectory _ _ _ hdirectory).1 rfl

end Generator

end Switchboard
