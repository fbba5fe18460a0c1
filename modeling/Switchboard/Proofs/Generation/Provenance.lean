import Switchboard.Proofs.Disk.Runs
import Switchboard.Proofs.Generation.AllOrNothing
import Switchboard.Proofs.Generation.Load
import Switchboard.Proofs.Output.Units
import Switchboard.Proofs.Text.Pieces

/-!
Where artifacts come from. Whatever requests are refused, the artifacts of a run are those of mappings
that are in the store. And a unit is not one of these mappings: its second line is empty, and a mapping
has no empty lines behind the first.
-/

namespace Switchboard

open Disk

/-! ### Units are no mappings -/

/-- The second line of the text is there and empty. -/
def Text.SecondLineEmpty (text : List Char) : Prop :=
  ∃ line rest, '\n' ∉ line ∧ text = line ++ '\n' :: '\n' :: rest

theorem Text.SecondLineEmpty.lines {text : List Char} (h : SecondLineEmpty text) :
    ∃ first rest, Text.lines text = first :: [] :: rest := by
  obtain ⟨line, rest, hline, rfl⟩ := h
  refine ⟨dropReturn line, Text.lines rest, ?_⟩
  rw [lines_append_feed hline, show '\n' :: rest = [] ++ '\n' :: rest from rfl,
    lines_append_feed List.not_mem_nil, dropReturn_nil]

theorem Mapping.ofSource_ne_ok {source : String} (h : Text.SecondLineEmpty source.toList)
    (name : String) (config : Config) (mapping : Mapping) :
    ofSource name source config ≠ .ok mapping := by
  intro hok
  obtain ⟨-, hentries⟩ := ofSource_eq_ok hok
  obtain ⟨first, rest, hlines⟩ := h.lines
  have hbad : readLines name config.width 2 ([] :: rest) = .error (.line name 2 .empty) := rfl
  simp only [readEntries, hlines, List.tail_cons, hbad] at hentries
  split at hentries
  · cases hentries
  · split at hentries
    · cases hentries
    · cases hentries

theorem Code.secondLineEmpty_render {text : String} (hne : text ≠ "") (htext : '\n' ∉ text.toList)
    (indent : String) (rest : List Code) :
    Text.SecondLineEmpty (render indent (line text :: line "" :: rest)).toList := by
  refine ⟨text.toList, (String.join ((linesOf 0 rest).map (·.render indent))).toList, htext, ?_⟩
  simp [render, lines, Line.render, hne]

/-- Both units of an artifact have an empty second line. -/
theorem Output.UnitTree.secondLineEmpty_text (tree : Output.UnitTree) {mapping : Mapping}
    {strategy : Strategy} {config : Config} {artifact : Artifact}
    (h : Artifact.emit mapping strategy config = .ok artifact)
    (hincluded : '\n' ∉ config.target.includePrefix.toList) (indent : Indent) :
    Text.SecondLineEmpty (tree.text artifact indent).toList := by
  obtain ⟨plan, rfl, hclass⟩ := Output.emit_eq_ok h
  cases tree with
  | interfaces => exact Code.secondLineEmpty_render (by decide) (by decide) indent.unit _
  | implementations =>
      have hname : '\n' ∉ (strategy.className mapping.name).toList := fun hmem =>
        absurd (strategy.isWordChar_of_mem_className mapping.name_isWordTail _ hmem) (by decide)
      rw [← hclass] at hname
      refine Code.secondLineEmpty_render ?_ ?_ indent.unit _
      · intro hempty
        simp [← String.toList_inj] at hempty
      · have hclassName :
            '\n' ∉ (Artifact.ofPlan config.target mapping.name plan).className.toList := hname
        simpa [hincluded, Artifact.ofPlan] using hclassName

/-! ### Emission -/

/-- The artifact is that of a mapping in the store. -/
def Artifact.IsFrom (store : Store) (config : Config) (artifact : Artifact) : Prop :=
  ∃ path mapping strategy, mapping.IsAt store config path ∧
    Artifact.emit mapping strategy config = .ok artifact

variable {system : System} {store : Store} {config : Config} {path : Path} {mapping : Mapping}

theorem Artifact.IsFrom.isEmitted {artifact : Artifact} (h : artifact.IsFrom store config) :
    Output.IsEmitted artifact := by
  obtain ⟨_, mapping, strategy, -, hemit⟩ := h
  exact ⟨mapping, strategy, config, hemit⟩

theorem finds_loadMapping (store : Store) (config : Config) (path : Path) :
    (Mapping.load config path).Finds system store (·.IsAt store config path) := by
  have hread : (Job.attempt .read path (Script.request (.read path))).Finds system store
      (store.read path = .ok ·) := by
    refine Job.safe_attempt (Script.safe_request (.read path) rfl fun answer found hanswer => ?_)
    obtain ⟨rfl, hbytes⟩ := hanswer.read_cases
    refine ⟨rfl, ?_⟩
    cases answer with
    | ok bytes => exact hbytes bytes rfl
    | error cause => trivial
  refine hread.bind fun bytes hbytes => ?_
  cases hsource : String.fromUTF8? bytes with
  | none => exact Job.safe_fail rfl trivial
  | some source =>
      exact Job.safe_ofExcept rfl (fun mapping hmapping => ⟨bytes, source, hbytes, hsource, hmapping⟩)
        fun _ _ => trivial

namespace Generator

theorem finds_load (generator : Generator) (path : Path) :
    (generator.load path).Finds system store (·.IsAt store generator.config path) :=
  (onlyReads_requireFile path).finds.bind fun _ _ => finds_loadMapping store generator.config path

theorem emitAll_eq_ok {strategies : List Strategy} {artifacts : List Artifact}
    (h : emitAll config mapping strategies = .ok artifacts) :
    ∀ artifact ∈ artifacts, ∃ strategy, Artifact.emit mapping strategy config = .ok artifact := by
  intro artifact hartifact
  have hmem : .ok artifact ∈ strategies.map (Artifact.emit mapping · config) := by
    rw [Except.mapM_eq_ok_iff.1 h]
    exact List.mem_map_of_mem hartifact
  obtain ⟨strategy, -, hemit⟩ := List.mem_map.1 hmem
  exact ⟨strategy, hemit⟩

theorem emitOwned_eq_ok {owners : Owners} {strategies : List Strategy} {artifacts : List Artifact}
    (h : emitOwned config owners path mapping strategies = .ok artifacts) :
    ∀ artifact ∈ artifacts, ∃ strategy, Artifact.emit mapping strategy config = .ok artifact := by
  induction strategies generalizing artifacts with
  | nil =>
      cases h
      exact nofun
  | cons strategy rest ih =>
      rw [emitOwned] at h
      obtain ⟨first, hfirst, h⟩ := Except.bind_eq_ok_iff.1 h
      split at h
      · cases h
      · obtain ⟨others, hothers, h⟩ := Except.bind_eq_ok_iff.1 h
        cases h
        intro artifact hartifact
        rcases List.mem_cons.1 hartifact with rfl | hartifact
        · exact ⟨strategy, hfirst⟩
        · exact ih hothers artifact hartifact

theorem finds_emitFiles (config : Config) (owners : Owners) (paths : List Path) :
    (emitFiles config owners paths).Finds system store (∀ artifact ∈ ·, artifact.IsFrom store config) := by
  induction paths generalizing owners with
  | nil => exact Job.safe_pure rfl nofun
  | cons path rest ih =>
      rw [emitFiles]
      refine (finds_loadMapping store config path).bind fun mapping hmapping => ?_
      have howned : (Job.ofExcept (emitOwned config owners path mapping Strategy.all)).Finds system store
          (∀ artifact ∈ ·, artifact.IsFrom store config) := by
        refine Job.safe_ofExcept rfl (fun artifacts hartifacts artifact hartifact => ?_)
          fun _ _ => trivial
        obtain ⟨strategy, hemit⟩ := emitOwned_eq_ok hartifacts artifact hartifact
        exact ⟨path, mapping, strategy, hmapping, hemit⟩
      refine howned.bind fun artifacts hartifacts => (ih _).bind fun others hothers => ?_
      refine Job.safe_pure rfl fun artifact hartifact => ?_
      rcases List.mem_append.1 hartifact with hartifact | hartifact
      · exact hartifacts artifact hartifact
      · exact hothers artifact hartifact

theorem finds_directoryEmission (generator : Generator) (directory : Path) :
    (generator.directoryEmission directory).Finds system store
      (∀ artifact ∈ ·, artifact.IsFrom store generator.config) :=
  (onlyReads_mappingFiles directory).finds.bind fun paths _ =>
    finds_emitFiles generator.config [] paths

end Generator

end Switchboard
