import Switchboard.Command.Run
import Switchboard.Proofs.Generation.Repeat
import Switchboard.Proofs.Output.Placings

/-!
The commands that only read agree with generation. Generating a mapping under one strategy begins
with an emission, which reads and lays out the mapping. Dumping does the same and shows the artifact
instead of writing it; checking stops when the mapping is read, and resolving when it is laid out.
What is left out cannot fail: an emission fails when the mapping cannot be read or the layout does
not exist, and for nothing else. So the three commands fail exactly when the emission does and tell
its fault, where checking, which knows no strategy, goes along with the two strategies whose layouts
always exist.
-/

namespace Switchboard

open Disk

/-! ### Emissions of one artifact -/

namespace Generator

variable {store : Store} {generator : Generator} {path : Path} {strategy : Strategy}
  {fault : Fault}

theorem result_emission_singleton (generator : Generator) (path : Path) (strategy : Strategy) :
    (generator.emission path [strategy]).result store =
      (generator.load path).result store >>= fun mapping =>
        (Artifact.emit mapping strategy generator.config).map ([·]) := by
  rw [result_emission]
  refine congrArg _ (funext fun mapping => ?_)
  rw [emitAll, List.mapM_cons, List.mapM_nil]
  cases Artifact.emit mapping strategy generator.config <;> rfl

/-- Reading the mapping can fail, and laying it out can. -/
theorem result_emission_eq_error_iff :
    (generator.emission path [strategy]).result store = .error fault ↔
      (generator.load path).result store = .error fault ∨
        ∃ mapping, (generator.load path).result store = .ok mapping ∧
          Plan.ofMapping strategy mapping generator.config = .error fault := by
  rw [result_emission_singleton, Except.bind_eq_error_iff]
  simp only [Artifact.emit, Except.map_eq_error_iff]

/-- For a strategy whose layout always exists, reading the mapping is all that can fail. -/
theorem result_emission_eq_error_iff_of_ne_array (h : strategy ≠ .array) :
    (generator.emission path [strategy]).result store = .error fault ↔
      (generator.load path).result store = .error fault := by
  rw [result_emission_eq_error_iff]
  refine or_iff_left ?_
  rintro ⟨mapping, -, hplan⟩
  exact h (Plan.ofMapping_eq_error hplan).1

/-- The layout of the mapping in a file is found by reading alone. -/
theorem onlyReads_plan (generator : Generator) (path : Path) (strategy : Strategy) :
    OnlyReads (do
      let mapping ← generator.load path
      Job.ofExcept (Plan.ofMapping strategy mapping generator.config)) := by
  refine (onlyReads_load generator path).bind fun mapping => onlyReads_ofExcept fun fault hfault => ?_
  exact Artifact.action?_of_emit (Except.map_eq_error_iff.2 hfault)

theorem placesUnits_write (generator : Generator) (artifact : Artifact) (store : Store) :
    Output.PlacesUnits store (generator.write [artifact]) generator.layout artifact.className
      (artifact.interfaceText generator.config.indent)
      (artifact.implementationText generator.config.indent) := by
  obtain ⟨temporary, temporary', hplaces⟩ := Output.placesUnits_writeArtifact store
    generator.layout generator.config.indent artifact
  refine ⟨temporary, temporary', ?_⟩
  rw [write, Output.writeArtifacts, List.mapM_cons, List.mapM_nil]
  exact hplaces.bind_nothing fun _ _ _ => .pure _

/-- A run for one strategy asks for the two units of the artifact and puts nothing else in place. -/
theorem placesUnits_generate {artifact : Artifact}
    (h : (generator.emission path [strategy]).result store = .ok [artifact]) :
    Output.PlacesUnits store (generator.generate path [strategy]) generator.layout
      artifact.className (artifact.interfaceText generator.config.indent)
      (artifact.implementationText generator.config.indent) := by
  have hreads := onlyReads_emission generator path [strategy]
  have hnone : store.Places (generator.emission path [strategy]) [] :=
    .of_keeps hreads fun _ => Request.isPlacing_of_isReading
  obtain ⟨temporary, temporary', hplaces⟩ := placesUnits_write generator artifact store
  refine ⟨temporary, temporary', hnone.bind_const ?_⟩
  intro artifacts found hemission
  rw [Job.perform_eq_of_isReading hreads, h] at hemission
  cases hemission
  exact hplaces

end Generator

/-! ### Commands -/

namespace Command

variable {α β : Type} {store : Store} {palette : Palette}

/-- A fault is one line of diagnostics, and nothing else is put out. -/
theorem Outcome.failure_eq (palette : Palette) (fault : Fault) :
    Outcome.failure palette fault =
      { output := ""
        diagnostics := palette.red ++ "error" ++ palette.reset ++ ": " ++ fault.message ++ "\n"
        exit := 1 } :=
  rfl

/-- The script fails exactly when the emission does, with its fault, and it changes nothing. -/
structure FailsAs (store : Store) (palette : Palette) (emission : Job α) (script : Script Outcome) :
    Prop where
  /-- What the script concludes has the faults of the emission. -/
  sameFaults : ∃ (β : Type) (job : Job β) (report : β → Outcome),
    script = conclude palette job report ∧
      ∀ fault, emission.result store = .error fault ↔ job.result store = .error fault
  exit_ne_zero_iff : (store.run script).1.exit ≠ 0 ↔ ∃ fault, emission.result store = .error fault
  failure : ∀ fault, emission.result store = .error fault →
    (store.run script).1 =
      { output := ""
        diagnostics := palette.red ++ "error" ++ palette.reset ++ ": " ++ fault.message ++ "\n"
        exit := 1 }
  unchanged : (store.run script).2 = store

/-- What a job that only reads comes to is reported, and nothing is changed. -/
theorem run_conclude_of_onlyReads {job : Job α} (hreads : OnlyReads job) (report : α → Outcome) :
    store.run (conclude palette job report) =
      (match job.result store with
        | .ok value => report value
        | .error fault => Outcome.failure palette fault, store) := by
  have hrun : store.run job.run = (job.result store, store) := Job.perform_eq_of_isReading hreads
  rw [conclude, Store.run_bind, hrun]
  cases job.result store <;> rfl

theorem failsAs_conclude {job : Job α} {emission : Job β} {report : α → Outcome}
    (hreads : OnlyReads job) (hreport : ∀ value, (report value).exit = 0)
    (hsame : ∀ fault, emission.result store = .error fault ↔ job.result store = .error fault) :
    FailsAs store palette emission (conclude palette job report) := by
  have hrun : store.run (conclude palette job report) = _ :=
    run_conclude_of_onlyReads hreads report
  refine ⟨⟨_, job, report, rfl, hsame⟩, ?_, fun fault hfault => ?_, congrArg Prod.snd hrun⟩
  · simp only [hsame, hrun]
    cases job.result store with
    | ok value => simp [hreport]
    | error fault => simp [Outcome.failure_eq]
  · rw [hrun, (hsame fault).1 hfault]
    exact Outcome.failure_eq palette fault

/-- The text shows the units of a run for one strategy, each under a line with the path that it would
have below no root: the run asks to have them put in place, and so does writing its artifacts anywhere
else. -/
def ShowsRun (store : Store) (generator : Generator) (path : Path) (strategy : Strategy)
    (artifacts : List Artifact) (text : String) : Prop :=
  ∃ className interface implementation,
    text =
      "// " ++ ((Layout.of ⟨""⟩ generator.config.target).interfacePath className).text ++ "\n" ++
        interface ++ "\n" ++
      "// " ++ ((Layout.of ⟨""⟩ generator.config.target).implementationPath className).text ++
        "\n" ++ implementation ∧
    Output.PlacesUnits store (generator.generate path [strategy]) generator.layout className
      interface implementation ∧
    ∀ found, Output.PlacesUnits found (generator.write artifacts) generator.layout className
      interface implementation

section

variable (store) (path outRoot : Path) (config : Config) (strategy : Strategy) (terminal : Bool)

theorem dump_agrees (coloring : Coloring) :
    FailsAs store (Palette.of (coloring.isOn terminal))
        (Generator.emission ⟨config, outRoot⟩ path [strategy])
        (run terminal (.dump strategy path config coloring)) ∧
      ∀ artifacts,
        (Generator.emission ⟨config, outRoot⟩ path [strategy]).result store = .ok artifacts →
        coloring.isOn terminal = false →
        ∃ text, (store.run (run terminal (.dump strategy path config coloring))).1 =
            { output := text } ∧
          ShowsRun store ⟨config, outRoot⟩ path strategy artifacts text := by
  have hreads := Generator.onlyReads_render ⟨config, shownRoot⟩ path strategy
  have hrender : (Generator.render ⟨config, shownRoot⟩ path strategy).result store =
      (Generator.load ⟨config, shownRoot⟩ path).result store >>= fun mapping =>
        Artifact.emit mapping strategy config :=
    Job.result_bind (Generator.onlyReads_load ⟨config, shownRoot⟩ path) _
  constructor
  · refine failsAs_conclude hreads (fun _ => rfl) fun fault => ?_
    rw [Generator.result_emission_eq_error_iff, hrender, Except.bind_eq_error_iff]
    simp only [Artifact.emit, Except.map_eq_error_iff]
    exact Iff.rfl
  · intro artifacts hemission hcolor
    rw [Generator.result_emission_singleton] at hemission
    obtain ⟨mapping, hmapping, hemit⟩ := Except.bind_eq_ok_iff.1 hemission
    obtain ⟨artifact, hartifact, rfl⟩ := Except.map_eq_ok_iff.1 hemit
    have hresult : (Generator.render ⟨config, shownRoot⟩ path strategy).result store =
        .ok artifact := by
      rw [hrender]
      exact Except.bind_eq_ok_iff.2 ⟨mapping, hmapping, hartifact⟩
    have hgenerate := Generator.placesUnits_generate
      ((Generator.result_emission_singleton _ _ _).trans hemission)
    refine ⟨_, ?_, artifact.className, artifact.interfaceText config.indent,
      artifact.implementationText config.indent, rfl, hgenerate,
      Generator.placesUnits_write ⟨config, outRoot⟩ artifact⟩
    rw [run, run_conclude_of_onlyReads hreads, hresult, hcolor]
    simp [artifactDump, unitDump, Palette.paint, Palette.of, Palette.off, String.append_assoc]
    rfl

theorem check_agrees (reporting : Reporting) (hstrategy : strategy ≠ .array) :
    FailsAs store (Palette.of (reporting.coloring.isOn terminal))
      (Generator.emission ⟨config, outRoot⟩ path [strategy])
      (run terminal (.check path config reporting)) :=
  failsAs_conclude (Generator.onlyReads_load _ path) (fun _ => rfl) fun _ =>
    Generator.result_emission_eq_error_iff_of_ne_array hstrategy

/-- What has passed a check can only be too much for a table, or too little. -/
theorem fault_of_check (reporting : Reporting)
    (hcheck : (store.run (run terminal (.check path config reporting))).1.exit = 0) {fault : Fault}
    (hfault : (Generator.emission ⟨config, outRoot⟩ path [strategy]).result store = .error fault) :
    fault = .emptyMapping (Mapping.nameOfPath path) ∨
      ∃ length, fault = .tableTooLarge (Mapping.nameOfPath path) length config.tableLimit := by
  have hagrees := check_agrees store path outRoot config .chain terminal reporting nofun
  rcases Generator.result_emission_eq_error_iff.1 hfault with hload | ⟨mapping, hload, hplan⟩
  · have hchain : Strategy.chain ≠ .array := nofun
    have hemission := (Generator.result_emission_eq_error_iff_of_ne_array hchain).2 hload
    exact absurd hcheck (hagrees.exit_ne_zero_iff.2 ⟨fault, hemission⟩)
  · have hname : mapping.name = Mapping.nameOfPath path := (Generator.isAt_of_load hload).name_eq
    rw [← hname]
    exact (Plan.ofMapping_eq_error hplan).2

theorem resolve_agrees (identifiers : List Identifier) (coloring : Coloring) :
    FailsAs store (Palette.of (coloring.isOn terminal))
      (Generator.emission ⟨config, outRoot⟩ path [strategy])
      (run terminal (.resolve strategy path identifiers config coloring)) := by
  refine failsAs_conclude (Generator.onlyReads_plan ⟨config, shownRoot⟩ path strategy)
    (fun _ => rfl) fun fault => ?_
  rw [Generator.result_emission_eq_error_iff,
    Job.result_bind (Generator.onlyReads_load ⟨config, shownRoot⟩ path), Except.bind_eq_error_iff]
  exact Iff.rfl

/-- The commands that only read agree with generation, on every store, every mapping and every
configuration. Dumping and resolving fail exactly when the emission of a run for their strategy
does, and tell its fault; checking does so for a chain and for a switch, and what it lets pass can
fail for a table only because there is nothing to lay out or too much. A dump without colours shows
the units that the run asks to have written, byte for byte. None of the three commands changes
anything. -/
theorem readers_agree_with_generation (coloring : Coloring) (reporting : Reporting)
    (identifiers : List Identifier) :
    (FailsAs store (Palette.of (coloring.isOn terminal))
        (Generator.emission ⟨config, outRoot⟩ path [strategy])
        (run terminal (.dump strategy path config coloring)) ∧
      ∀ artifacts,
        (Generator.emission ⟨config, outRoot⟩ path [strategy]).result store = .ok artifacts →
        coloring.isOn terminal = false →
        ∃ text, (store.run (run terminal (.dump strategy path config coloring))).1 =
            { output := text } ∧
          ShowsRun store ⟨config, outRoot⟩ path strategy artifacts text) ∧
    (FailsAs store (Palette.of (reporting.coloring.isOn terminal))
        (Generator.emission ⟨config, outRoot⟩ path [.chain])
        (run terminal (.check path config reporting)) ∧
      FailsAs store (Palette.of (reporting.coloring.isOn terminal))
        (Generator.emission ⟨config, outRoot⟩ path [.switch])
        (run terminal (.check path config reporting)) ∧
      ((store.run (run terminal (.check path config reporting))).1.exit = 0 → ∀ fault,
        (Generator.emission ⟨config, outRoot⟩ path [.array]).result store = .error fault →
        fault = .emptyMapping (Mapping.nameOfPath path) ∨
          ∃ length, fault = .tableTooLarge (Mapping.nameOfPath path) length config.tableLimit)) ∧
    FailsAs store (Palette.of (coloring.isOn terminal))
      (Generator.emission ⟨config, outRoot⟩ path [strategy])
      (run terminal (.resolve strategy path identifiers config coloring)) :=
  ⟨dump_agrees store path outRoot config strategy terminal coloring,
    ⟨check_agrees store path outRoot config .chain terminal reporting nofun,
      check_agrees store path outRoot config .switch terminal reporting nofun,
      fun hcheck _ => fault_of_check store path outRoot config .array terminal reporting hcheck⟩,
    resolve_agrees store path outRoot config strategy terminal identifiers coloring⟩

end

/-- Of three protocols a table is dumped, and a run asks for exactly what the dump shows. Without
entries there is no table, but the check passes. -/
theorem readers_agree_ipProtocols :
    (∃ artifacts text, ipProtocolsStore.run (run false (.dump .array ⟨"maps/ip"⟩ {} .auto)) =
        ({ output := text }, ipProtocolsStore) ∧
      ShowsRun ipProtocolsStore ⟨{}, ⟨"."⟩⟩ ⟨"maps/ip"⟩ .array artifacts text) ∧
    (Generator.withoutEntries.run (run false (.check ⟨"maps/ip"⟩ {} {}))).1.exit = 0 ∧
    (Generator.withoutEntries.run (run false (.dump .array ⟨"maps/ip"⟩ {} .auto))).1 =
      { output := ""
        diagnostics := "error: mapping 'ip' has no entries, cannot build a sparse table\n"
        exit := 1 } := by
  obtain ⟨plan, hplan⟩ := Plan.ofMapping_ipProtocols
  have hemit : Generator.emitAll {} Mapping.ipProtocols [.array] =
      .ok [Artifact.ofPlan Target.standard "ip" plan] := by
    rw [Generator.emitAll, List.mapM_cons, Artifact.emit, hplan]
    rfl
  obtain ⟨⟨hdump, hshows⟩, -⟩ := readers_agree_with_generation ipProtocolsStore ⟨"maps/ip"⟩ ⟨"."⟩ {}
    .array false .auto {} []
  obtain ⟨text, htext, hrun⟩ :=
    hshows _ (Generator.perform_emission_of_isAt isAt_ipProtocolsStore hemit) rfl
  have hempty : Generator.faultOf? ((Generator.emission ⟨{}, ⟨"."⟩⟩ ⟨"maps/ip"⟩ [.array]).result
      Generator.withoutEntries) = some (.emptyMapping "ip") := by decide +kernel
  obtain ⟨_, hfault⟩ := Generator.perform_of_faultOf? hempty
  obtain ⟨⟨hfails, -⟩, ⟨hcheck, -⟩, -⟩ := readers_agree_with_generation Generator.withoutEntries
    ⟨"maps/ip"⟩ ⟨"."⟩ {} .array false .auto {} []
  refine ⟨⟨_, text, Prod.ext htext hdump.unchanged, hrun⟩, ?_,
    hfails.failure _ (congrArg Prod.fst hfault)⟩
  have hchain : Generator.faultOf? ((Generator.emission ⟨{}, ⟨"."⟩⟩ ⟨"maps/ip"⟩ [.chain]).result
      Generator.withoutEntries) = none := by decide +kernel
  by_contra hne
  obtain ⟨fault, hfault⟩ := hcheck.exit_ne_zero_iff.1 hne
  rw [hfault] at hchain
  cases hchain

end Command

end Switchboard
