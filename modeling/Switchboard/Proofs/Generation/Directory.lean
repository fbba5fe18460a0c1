import Mathlib.Data.List.Induction
import Switchboard.Proofs.Disk.Results
import Switchboard.Proofs.Generation.AllOrNothing
import Switchboard.Proofs.Generation.ClassNames
import Switchboard.Proofs.Generation.Load
import Switchboard.Proofs.Generation.Provenance
import Switchboard.Proofs.Output.Removal
import Switchboard.Proofs.Text.Sorting

/-!
A directory is generated file by file. The run over a directory carries along who owns which class,
and can end behind each of its steps; the run over one file knows nothing of other files. The two
agree: the artifacts of a directory are those of its files, one file after the other, and all that the
run over a directory asks for beyond them is that no two files have one class.

So a file of a directory can be at fault in three ways (`FileFault`): by itself when it is loaded, by a
file before it that has its class, and by itself again when its table is laid out. They are judged in
this order, because a class is looked up behind the first artifact of a file and the table is the last.
The fault of the run is that of the first file that is at fault.

The induction over the files is carried by the owners: those of the files that were passed, and no
others (`ownersOf`).
-/

namespace Switchboard

open Disk

namespace Generator

variable {store : Store} {generator : Generator} {config : Config} {mapping : Mapping}
  {before : List Path} {path : Path} {artifacts : List Artifact} {fault : Fault}

/-! ### Loading -/

theorem name_of_loadMapping (h : (Mapping.load config path).result store = .ok mapping) :
    mapping.name = Mapping.nameOfPath path := by
  have hread : (Request.read path).isReading := rfl
  rw [Mapping.load, Job.result_bind (onlyReads_attempt hread rfl)] at h
  obtain ⟨bytes, -, hsource⟩ := Except.bind_eq_ok_iff.1 h
  split at hsource
  · cases hsource
  · exact (Mapping.ofSource_eq_ok hsource).1

theorem load_eq_of_requireFile (h : (requireFile path).result store = .ok ()) :
    (generator.load path).result store = (Mapping.load generator.config path).result store := by
  rw [load, Job.result_bind (onlyReads_requireFile path), h]
  rfl

theorem name_of_load (h : (generator.load path).result store = .ok mapping) :
    mapping.name = Mapping.nameOfPath path := by
  rw [load, Job.result_bind (onlyReads_requireFile path)] at h
  obtain ⟨_, -, hload⟩ := Except.bind_eq_ok_iff.1 h
  exact name_of_loadMapping hload

theorem result_emission (generator : Generator) (path : Path) (strategies : List Strategy) :
    (generator.emission path strategies).result store =
      (generator.load path).result store >>= fun mapping =>
        emitAll generator.config mapping strategies :=
  Job.result_bind (onlyReads_load generator path) _

/-! ### Classes -/

/-- The files have one class. -/
def SameClass (other path : Path) : Prop :=
  Strategy.chain.className (Mapping.nameOfPath other) =
    Strategy.chain.className (Mapping.nameOfPath path)

instance (other path : Path) : Decidable (SameClass other path) :=
  inferInstanceAs (Decidable (_ = _))

/-- Files that have one class under a strategy have one under each. -/
theorem sameClass_iff {other path : Path} (strategy : Strategy) : SameClass other path ↔
    strategy.className (Mapping.nameOfPath other) = strategy.className (Mapping.nameOfPath path) := by
  simp [SameClass, Strategy.className_eq_iff]

theorem SameClass.trans_symm {other other' : Path} (h : SameClass other path)
    (h' : SameClass other' path) : SameClass other other' :=
  Eq.trans h (Eq.symm h')

/-- The classes of a file, each with the file. -/
def classesOf (path : Path) : Owners :=
  Strategy.all.map fun strategy => (strategy.className (Mapping.nameOfPath path), path)

/-- The owners of the classes of some files. -/
def ownersOf (paths : List Path) : Owners :=
  paths.flatMap classesOf

theorem ownersOf_concat (paths : List Path) (path : Path) :
    ownersOf (paths ++ [path]) = ownersOf paths ++ classesOf path := by
  simp [ownersOf]

theorem lookup_classesOf (other path : Path) (strategy : Strategy) :
    (classesOf other).lookup (strategy.className (Mapping.nameOfPath path)) =
      if SameClass other path then some other else none := by
  by_cases hsame : Text.capitalize (Mapping.nameOfPath path) =
      Text.capitalize (Mapping.nameOfPath other)
  · cases strategy <;>
      simp [classesOf, Strategy.all, List.lookup_cons, SameClass, beq_eq_decide,
        Strategy.className_eq_iff, hsame]
  · cases strategy <;>
      simp [classesOf, Strategy.all, List.lookup_cons, SameClass, beq_eq_decide,
        Strategy.className_eq_iff, hsame, Ne.symm hsame]

/-- The class of a file under a strategy belongs to the first file that has it. -/
theorem lookup_ownersOf (paths : List Path) (path : Path) (strategy : Strategy) :
    (ownersOf paths).lookup (strategy.className (Mapping.nameOfPath path)) =
      paths.find? (SameClass · path) := by
  induction paths with
  | nil => rfl
  | cons other rest ih =>
      have hcons : ownersOf (other :: rest) = classesOf other ++ ownersOf rest := by
        simp [ownersOf]
      rw [hcons, List.lookup_append, lookup_classesOf, ih, List.find?_cons]
      by_cases hsame : SameClass other path <;> simp [hsame]

/-! ### One file -/

theorem className_of_emitAll {strategies : List Strategy}
    (h : emitAll config mapping strategies = .ok artifacts) :
    artifacts.map (·.className) = strategies.map (·.className mapping.name) := by
  induction strategies generalizing artifacts with
  | nil =>
      cases h
      rfl
  | cons strategy rest ih =>
      rw [emitAll, List.mapM_cons] at h
      obtain ⟨artifact, hartifact, h⟩ := Except.bind_eq_ok_iff.1 h
      obtain ⟨others, hothers, h⟩ := Except.bind_eq_ok_iff.1 h
      cases h
      obtain ⟨_, -, hclass⟩ := Output.emit_eq_ok hartifact
      rw [List.map_cons, List.map_cons, hclass, ih hothers]

/-- Only a table can fail to be laid out. -/
theorem emitAll_eq_error {strategies : List Strategy}
    (h : emitAll config mapping strategies = .error fault) :
    fault = .emptyMapping mapping.name ∨
      ∃ length, fault = .tableTooLarge mapping.name length config.tableLimit := by
  obtain ⟨strategy, -, hemit⟩ := Except.exists_of_mapM_eq_error h
  exact (Plan.ofMapping_eq_error (Except.map_eq_error_iff.1 hemit)).2

/-- Without an owner of its classes, a mapping is emitted as it is alone. -/
theorem emitOwned_of_free {owners : Owners} {strategies : List Strategy}
    (hfree : ∀ strategy ∈ strategies, owners.lookup (strategy.className mapping.name) = none) :
    emitOwned config owners path mapping strategies = emitAll config mapping strategies := by
  induction strategies with
  | nil => rfl
  | cons strategy rest ih =>
      rw [emitOwned, emitAll, List.mapM_cons]
      cases hemit : Artifact.emit mapping strategy config with
      | error fault => rfl
      | ok artifact =>
          obtain ⟨_, -, hclass⟩ := Output.emit_eq_ok hemit
          have hlookup : owners.lookup artifact.className = none := by
            rw [hclass]
            exact hfree strategy List.mem_cons_self
          have hrest := ih fun other hother => hfree other (List.mem_cons_of_mem _ hother)
          simp only [bind, Except.bind, hlookup, hrest]
          rfl

/-- The owner of its class stops a mapping behind the first artifact, which never fails. -/
theorem emitOwned_of_owner {owners : Owners} {owner : Path}
    (howner : owners.lookup (Strategy.chain.className mapping.name) = some owner) :
    emitOwned config owners path mapping Strategy.all =
      .error (.classCollision (Strategy.chain.className mapping.name) owner path) := by
  have hemit : Artifact.emit mapping .chain config =
      .ok (Artifact.ofPlan config.target mapping.name (.chain (ChainPlan.ofMapping mapping))) := rfl
  have hclass : (Artifact.ofPlan config.target mapping.name
      (.chain (ChainPlan.ofMapping mapping))).className = Strategy.chain.className mapping.name := rfl
  rw [Strategy.all, emitOwned, hemit]
  simp only [bind, Except.bind, hclass, howner]

/-- The artifacts of a file under every strategy, emitted on its own. -/
def Emits (store : Store) (generator : Generator) (path : Path) (artifacts : List Artifact) : Prop :=
  (generator.emission path Strategy.all).result store = .ok artifacts

/-- The one file before a path that has its class. -/
def OwnsClass (before : List Path) (path owner : Path) : Prop :=
  ∃ front back, before = front ++ owner :: back ∧ SameClass owner path ∧
    ∀ other ∈ front ++ back, ¬ SameClass other path

/-- What is wrong with a file that stands behind others in a directory. -/
inductive FileFault (store : Store) (generator : Generator) (before : List Path) (path : Path) :
    Fault → Prop
  | load {fault : Fault} (hload : (generator.load path).result store = .error fault) :
      FileFault store generator before path fault
  | owned {mapping : Mapping} {owner : Path}
      (hload : (generator.load path).result store = .ok mapping)
      (howner : OwnsClass before path owner) :
      FileFault store generator before path
        (.classCollision ("GeneratedIf" ++ Text.capitalize mapping.name) owner path)
  | table {mapping : Mapping} {fault : Fault}
      (hload : (generator.load path).result store = .ok mapping)
      (hfree : ∀ other ∈ before, ¬ SameClass other path)
      (hemission : (generator.emission path Strategy.all).result store = .error fault)
      (hfault : fault = .emptyMapping mapping.name ∨
        ∃ length, fault = .tableTooLarge mapping.name length generator.config.tableLimit) :
      FileFault store generator before path fault

/-- A file whose artifacts are emitted and whose class is free is not at fault. -/
theorem FileFault.not_free (h : FileFault store generator before path fault)
    (hemits : Emits store generator path artifacts) : ¬ ∀ other ∈ before, ¬ SameClass other path := by
  intro hfree
  cases h with
  | load hload =>
      rw [Emits, result_emission, hload] at hemits
      cases hemits
  | owned hload howner =>
      obtain ⟨front, back, rfl, hsame, -⟩ := howner
      exact hfree _ (List.mem_append_right _ List.mem_cons_self) hsame
  | table hload hfree hemission hfault =>
      rw [Emits, hemission] at hemits
      cases hemits

/-- A file behind files with different classes is at fault, unless its artifacts are emitted and its
class is free. -/
theorem free_or_fileFault (hbefore : before.Pairwise (¬ SameClass · ·)) (store : Store)
    (generator : Generator) (path : Path) :
    (∃ artifacts, Emits store generator path artifacts) ∧ (∀ other ∈ before, ¬ SameClass other path) ∨
      ∃ fault, FileFault store generator before path fault := by
  cases hload : (generator.load path).result store with
  | error fault => exact .inr ⟨fault, .load hload⟩
  | ok mapping =>
      have hemission : (generator.emission path Strategy.all).result store = _ :=
        result_emission generator path Strategy.all
      by_cases hfree : ∀ other ∈ before, ¬ SameClass other path
      · cases hemit : emitAll generator.config mapping Strategy.all with
        | ok artifacts =>
            rw [hload] at hemission
            exact .inl ⟨⟨artifacts, hemission.trans hemit⟩, hfree⟩
        | error fault =>
            rw [hload] at hemission
            exact .inr ⟨fault, .table hload hfree (hemission.trans hemit) (emitAll_eq_error hemit)⟩
      · push Not at hfree
        obtain ⟨owner, howner, hsame⟩ := hfree
        obtain ⟨front, back, rfl⟩ := List.append_of_mem howner
        refine .inr ⟨_, .owned hload ⟨front, back, rfl, hsame, fun other hother hother' => ?_⟩⟩
        -- Two owners would have one class.
        obtain ⟨-, hback, hfront⟩ := List.pairwise_append.1 hbefore
        rcases List.mem_append.1 hother with hmem | hmem
        · exact hfront other hmem owner List.mem_cons_self (hother'.trans_symm hsame)
        · exact List.rel_of_pairwise_cons hback hmem (hsame.trans_symm hother')

/-! ### All files -/

theorem result_emitFiles_cons (config : Config) (owners : Owners) (path : Path) (rest : List Path) :
    (emitFiles config owners (path :: rest)).result store =
      (Mapping.load config path).result store >>= fun mapping =>
        emitOwned config owners path mapping Strategy.all >>= fun artifacts =>
          ((emitFiles config (owners ++ artifacts.map (·.className, path)) rest).result store).map
            (artifacts ++ ·) := by
  rw [emitFiles, Job.result_bind (onlyReads_loadMapping config path)]
  refine congrArg _ (funext fun mapping => ?_)
  rw [Job.result_bind (onlyReads_ofExcept fun _ => action?_of_emitOwned), Job.result_ofExcept]
  refine congrArg _ (funext fun artifacts => ?_)
  rw [Job.result_bind (onlyReads_emitFiles config _ rest)]
  cases (emitFiles config (owners ++ artifacts.map (·.className, path)) rest).result store <;> rfl

/-- No class of a file has an owner among files with other classes. -/
theorem lookup_of_free (hload : (generator.load path).result store = .ok mapping)
    (hfree : ∀ other ∈ before, ¬ SameClass other path) (strategy : Strategy) :
    (ownersOf before).lookup (strategy.className mapping.name) = none := by
  rw [name_of_load hload, lookup_ownersOf, List.find?_eq_none]
  simpa using hfree

/-- The run goes past a file that is not at fault, and owns its classes from there on. -/
theorem emitFiles_of_free (hfile : (requireFile path).result store = .ok ())
    (hemits : Emits store generator path artifacts) (hfree : ∀ other ∈ before, ¬ SameClass other path)
    (rest : List Path) :
    (emitFiles generator.config (ownersOf before) (path :: rest)).result store =
      ((emitFiles generator.config (ownersOf (before ++ [path])) rest).result store).map
        (artifacts ++ ·) := by
  rw [Emits, result_emission, Except.bind_eq_ok_iff] at hemits
  obtain ⟨mapping, hload, hemit⟩ := hemits
  have hname := name_of_load hload
  have hlookup := lookup_of_free hload hfree
  rw [load_eq_of_requireFile hfile] at hload
  have hclasses : artifacts.map (·.className, path) = classesOf path := by
    have hmap := congrArg (List.map (·, path)) (className_of_emitAll hemit)
    rw [List.map_map, List.map_map, hname] at hmap
    exact hmap
  rw [result_emitFiles_cons, hload, ownersOf_concat, ← hclasses]
  simp only [bind, Except.bind, emitOwned_of_free fun strategy _ => hlookup strategy, hemit]

/-- The run ends with the fault of a file that is at fault. -/
theorem emitFiles_of_fileFault (hfile : (requireFile path).result store = .ok ())
    (hfault : FileFault store generator before path fault) (rest : List Path) :
    (emitFiles generator.config (ownersOf before) (path :: rest)).result store = .error fault := by
  rw [result_emitFiles_cons, ← load_eq_of_requireFile hfile]
  cases hfault with
  | load hload =>
      rw [hload]
      rfl
  | @owned mapping owner hload howner =>
      obtain ⟨front, back, rfl, hsame, hothers⟩ := howner
      have hlookup : (ownersOf (front ++ owner :: back)).lookup
          (Strategy.chain.className mapping.name) = some owner := by
        rw [name_of_load hload, lookup_ownersOf, List.find?_eq_some_iff_append]
        refine ⟨by simpa using hsame, front, back, rfl, fun other hother => ?_⟩
        simpa using hothers other (List.mem_append_left _ hother)
      rw [hload]
      simp only [bind, Except.bind, emitOwned_of_owner hlookup]
      rfl
  | @table mapping _ hload hfree hemission _ =>
      have hlookup := lookup_of_free hload hfree
      rw [result_emission, hload] at hemission
      rw [hload]
      simp only [bind, Except.bind, emitOwned_of_free fun strategy _ => hlookup strategy] at hemission ⊢
      rw [hemission]

/-- The run goes past files that are emitted and have different classes, with their artifacts in
order. -/
theorem emitFiles_append {passed : List Path} {parts : List (List Artifact)}
    (hfiles : ∀ path ∈ passed, (requireFile path).result store = .ok ())
    (hparts : List.Forall₂ (Emits store generator) passed parts)
    (hclasses : (before ++ passed).Pairwise (¬ SameClass · ·)) (rest : List Path) :
    (emitFiles generator.config (ownersOf before) (passed ++ rest)).result store =
      ((emitFiles generator.config (ownersOf (before ++ passed)) rest).result store).map
        (parts.flatten ++ ·) := by
  -- The owners that the run goes on with are those of the files before it and the file itself.
  induction hparts generalizing before with
  | nil =>
      rw [List.append_nil, List.nil_append]
      cases (emitFiles generator.config (ownersOf before) rest).result store <;> rfl
  | @cons path artifacts passed parts hemits _ ih =>
      rw [List.append_cons] at hclasses
      have hfree : ∀ other ∈ before, ¬ SameClass other path := by
        intro other hother
        obtain ⟨hpassed, -, -⟩ := List.pairwise_append.1 hclasses
        exact (List.pairwise_append.1 hpassed).2.2 other hother path List.mem_cons_self
      rw [List.cons_append, emitFiles_of_free (hfiles path List.mem_cons_self) hemits hfree,
        ih (fun other hother => hfiles other (List.mem_cons_of_mem _ hother)) hclasses,
        ← List.append_cons]
      cases (emitFiles generator.config (ownersOf (before ++ path :: passed)) rest).result store with
      | error fault => rfl
      | ok others => simp [Except.map]

/-- Files are all emitted and have different classes, or there is a first one that is at fault. -/
theorem clear_or_first_fault (store : Store) (generator : Generator) (paths : List Path) :
    ∃ passed rest parts, paths = passed ++ rest ∧ List.Forall₂ (Emits store generator) passed parts ∧
      passed.Pairwise (¬ SameClass · ·) ∧ ∀ path ∈ rest.head?, ∃ fault,
        FileFault store generator passed path fault := by
  -- A file is added at the end, so what was passed stays passed and only the last file is judged.
  induction paths using List.reverseRecOn with
  | nil => exact ⟨[], [], [], rfl, .nil, .nil, nofun⟩
  | append_singleton paths last ih =>
      obtain ⟨passed, rest, parts, rfl, hparts, hclasses, hhead⟩ := ih
      cases rest with
      | cons path rest =>
          exact ⟨passed, path :: rest ++ [last], parts, by simp, hparts, hclasses, by simpa using hhead⟩
      | nil =>
          rcases free_or_fileFault hclasses store generator last with
            ⟨⟨artifacts, hemits⟩, hfree⟩ | ⟨fault, hfault⟩
          · refine ⟨passed ++ [last], [], parts ++ [artifacts], by simp, ?_, ?_, nofun⟩
            · exact List.rel_append hparts (.cons hemits .nil)
            · exact List.pairwise_append.2 ⟨hclasses, List.pairwise_singleton _ _, by simpa using hfree⟩
          · exact ⟨passed, [last], parts, by simp, hparts, hclasses, by simpa using ⟨fault, hfault⟩⟩

theorem emits_of_mem {paths : List Path} {parts : List (List Artifact)}
    (h : List.Forall₂ (Emits store generator) paths parts) :
    ∀ path ∈ paths, ∃ artifacts, Emits store generator path artifacts := by
  induction h with
  | nil => exact nofun
  | cons hemits _ ih => exact List.forall_mem_cons.2 ⟨⟨_, hemits⟩, ih⟩

/-- Among files that are emitted and have different classes, none is at fault. -/
theorem not_fileFault_of_clear {passed earlier later : List Path} {other : Path}
    (hemits : ∀ path ∈ passed, ∃ artifacts, Emits store generator path artifacts)
    (hclasses : passed.Pairwise (¬ SameClass · ·)) (hsplit : passed = earlier ++ other :: later) :
    ¬ FileFault store generator earlier other fault := by
  intro hfault
  subst hsplit
  obtain ⟨artifacts, hother⟩ := hemits other (List.mem_append_right _ List.mem_cons_self)
  refine hfault.not_free hother fun path hpath => ?_
  exact (List.pairwise_append.1 hclasses).2.2 path hpath other List.mem_cons_self

/-! ### Directories -/

theorem result_mappingFiles (store : Store) (directory : Path) :
    (mappingFiles directory).result store =
      (requireDirectory directory).result store >>= fun _ =>
        (Job.attempt .list directory (Script.request (.list directory))).result store >>=
          fun entries =>
            let names := (entries.map (·.1)).filter (!isHidden ·)
            (names.forM fun name => requireFile (directory.join name)).result store >>= fun _ =>
              .ok ((names.mergeSort fun a b => a ≤ b).map directory.join) := by
  have hreading : (Request.list directory).isReading := rfl
  rw [mappingFiles, Job.result_bind (onlyReads_requireDirectory directory)]
  refine congrArg _ (funext fun _ => ?_)
  rw [Job.result_bind (onlyReads_attempt hreading rfl)]
  refine congrArg _ (funext fun entries => ?_)
  exact Job.result_bind (Job.keeps_forM fun name => onlyReads_requireFile (directory.join name)) _

/-- The files of a directory stand in the order of their names, and each of them is a regular file. -/
theorem mappingFiles_eq_ok {directory : Path} {paths : List Path}
    (h : (mappingFiles directory).result store = .ok paths) :
    (∃ names : List String, paths = names.map directory.join ∧ names.Pairwise (· ≤ ·) ∧
      (store.ListedOnce → names.Pairwise (· < ·))) ∧
    ∀ path ∈ paths, (requireFile path).result store = .ok () := by
  rw [result_mappingFiles] at h
  obtain ⟨_, -, h⟩ := Except.bind_eq_ok_iff.1 h
  obtain ⟨entries, hentries, h⟩ := Except.bind_eq_ok_iff.1 h
  obtain ⟨_, hfiles, h⟩ := Except.bind_eq_ok_iff.1 h
  rw [Job.result_forM_eq_ok_iff fun name => onlyReads_requireFile (directory.join name)] at hfiles
  rw [Except.ok.injEq] at h
  subst h
  refine ⟨⟨_, rfl, Text.pairwise_le_mergeSort _, fun hlisted => Text.pairwise_lt_mergeSort ?_⟩, ?_⟩
  · have hlist : store.list directory = .ok entries := Job.result_attempt_eq_ok_iff.1 hentries
    obtain ⟨location, -, rfl⟩ := Store.list_eq_ok_iff.1 hlist
    rw [List.map_map]
    exact (hlisted.children location).filter _
  · intro path hpath
    obtain ⟨name, hname, rfl⟩ := List.mem_map.1 hpath
    exact hfiles name (List.mem_mergeSort.1 hname)

theorem nameOfPath_isWordTail (h : Emits store generator path artifacts) :
    Text.isWordTail (Mapping.nameOfPath path) := by
  rw [Emits, result_emission] at h
  obtain ⟨mapping, hload, -⟩ := Except.bind_eq_ok_iff.1 h
  rw [← name_of_load hload]
  exact mapping.name_isWordTail

/-- Of files that are emitted, those have one class whose names differ in the case of the first letter
at most. -/
theorem sameClass_iff_equalButFirstCase {other : Path} {artifacts' : List Artifact}
    (h : Emits store generator path artifacts) (h' : Emits store generator other artifacts') :
    SameClass path other ↔
      Text.EqualButFirstCase (Mapping.nameOfPath path) (Mapping.nameOfPath other) := by
  rw [SameClass, Strategy.className_eq_iff,
    Text.capitalize_eq_iff (nameOfPath_isWordTail h) (nameOfPath_isWordTail h')]
  exact and_iff_right rfl

theorem pairwise_sameClass_iff {paths : List Path}
    (h : ∀ path ∈ paths, ∃ artifacts, Emits store generator path artifacts) :
    paths.Pairwise (¬ SameClass · ·) ↔ paths.Pairwise fun path other =>
      ¬ Text.EqualButFirstCase (Mapping.nameOfPath path) (Mapping.nameOfPath other) := by
  refine List.Pairwise.iff_of_mem fun {path other} hpath hother => not_congr ?_
  obtain ⟨artifacts, hemits⟩ := h path hpath
  obtain ⟨artifacts', hemits'⟩ := h other hother
  exact sameClass_iff_equalButFirstCase hemits hemits'

/-- What the run over a directory comes to, when its files are known. -/
theorem directoryEmission_cases (generator : Generator) {directory : Path} {paths : List Path}
    (hpaths : (mappingFiles directory).result store = .ok paths) :
    (∃ parts, List.Forall₂ (Emits store generator) paths parts ∧
      paths.Pairwise (¬ SameClass · ·) ∧
      (generator.directoryEmission directory).result store = .ok parts.flatten) ∨
    ∃ before path after fault, paths = before ++ path :: after ∧
      (∀ path ∈ before, ∃ artifacts, Emits store generator path artifacts) ∧
      before.Pairwise (¬ SameClass · ·) ∧ FileFault store generator before path fault ∧
      (generator.directoryEmission directory).result store = .error fault := by
  obtain ⟨-, hfiles⟩ := mappingFiles_eq_ok hpaths
  have hemission : (generator.directoryEmission directory).result store =
      (emitFiles generator.config (ownersOf []) paths).result store := by
    rw [directoryEmission, Job.result_bind (onlyReads_mappingFiles directory), hpaths]
    rfl
  obtain ⟨passed, rest, parts, rfl, hparts, hclasses, hhead⟩ :=
    clear_or_first_fault store generator paths
  have hrun := emitFiles_append (fun path hpath => hfiles path (List.mem_append_left _ hpath)) hparts
    (show ([] ++ passed).Pairwise (¬ SameClass · ·) from hclasses) rest
  rw [List.nil_append] at hrun
  cases rest with
  | nil =>
      have hnil : (emitFiles generator.config (ownersOf passed) []).result store = .ok [] := rfl
      rw [hnil] at hrun
      refine .inl ⟨parts, by simpa using hparts, by simpa using hclasses, ?_⟩
      rw [hemission, hrun]
      simp [Except.map]
  | cons path after =>
      obtain ⟨fault, hfault⟩ := hhead path rfl
      have hfile := hfiles path (List.mem_append_right _ List.mem_cons_self)
      rw [emitFiles_of_fileFault hfile hfault] at hrun
      refine .inr ⟨passed, path, after, fault, rfl, emits_of_mem hparts, hclasses, hfault, ?_⟩
      rw [hemission, hrun]
      rfl

/-- Behind an emission that only reads, the run writes. -/
theorem perform_write_of_result (generator : Generator) {emission : Job (List Artifact)}
    (hreads : OnlyReads emission) (h : emission.result store = .ok artifacts) :
    store.perform (emission >>= generator.write) = store.perform (generator.write artifacts) := by
  rw [Store.perform_bind, Job.perform_eq_of_isReading hreads, h]

/-- The run over a directory agrees with the runs over its files. Its files stand in the order of
their names. It emits artifacts exactly when each file does on its own and no two of them are called
alike but for the case of the first letter; then it writes the artifacts that the files would write on
their own, one file after the other. If it fails, nothing is written, and the fault is what is wrong
with the first file with which anything is wrong. -/
theorem directory_agrees_with_files (store : Store) (generator : Generator) (directory : Path)
    {paths : List Path} (hpaths : (mappingFiles directory).result store = .ok paths) :
    (∃ names : List String, paths = names.map directory.join ∧ names.Pairwise (· ≤ ·) ∧
      (store.ListedOnce → names.Pairwise (· < ·))) ∧
    ((∃ artifacts, (generator.directoryEmission directory).result store = .ok artifacts) ↔
      (∀ path ∈ paths, ∃ artifacts,
        (generator.emission path [.chain, .switch, .array]).result store = .ok artifacts) ∧
      paths.Pairwise fun path other =>
        ¬ Text.EqualButFirstCase (Mapping.nameOfPath path) (Mapping.nameOfPath other)) ∧
    (∀ artifacts, (generator.directoryEmission directory).result store = .ok artifacts →
      ∃ parts, artifacts = parts.flatten ∧
        List.Forall₂ (fun path part =>
          (generator.emission path [.chain, .switch, .array]).result store = .ok part ∧
            store.perform (generator.generate path [.chain, .switch, .array]) =
              store.perform (generator.write part)) paths parts ∧
        store.perform (generator.generateDirectory directory) =
          store.perform (generator.write artifacts)) ∧
    ∀ fault, (generator.directoryEmission directory).result store = .error fault →
      store.perform (generator.generateDirectory directory) = (.error fault, store) ∧
      ∃ before path after, paths = before ++ path :: after ∧
        FileFault store generator before path fault ∧
        ∀ earlier other later, before = earlier ++ other :: later →
          ∀ fault, ¬ FileFault store generator earlier other fault := by
  have hcases := directoryEmission_cases generator hpaths
  refine ⟨(mappingFiles_eq_ok hpaths).1, ⟨?_, ?_⟩, ?_, ?_⟩
  · rintro ⟨artifacts, hartifacts⟩
    obtain ⟨parts, hparts, hclasses, -⟩ | ⟨_, _, _, _, _, _, _, _, hfault⟩ := hcases
    · have hemits := emits_of_mem hparts
      exact ⟨hemits, (pairwise_sameClass_iff hemits).1 hclasses⟩
    · rw [hfault] at hartifacts
      cases hartifacts
  · rintro ⟨hemits, hnames⟩
    obtain ⟨parts, -, -, hok⟩ | ⟨before, path, after, fault, rfl, -, -, hfault, -⟩ := hcases
    · exact ⟨_, hok⟩
    · exact absurd hfault
        (not_fileFault_of_clear hemits ((pairwise_sameClass_iff hemits).2 hnames) rfl)
  · intro artifacts hartifacts
    have hwrite := perform_write_of_result generator
      (onlyReads_directoryEmission generator directory) hartifacts
    obtain ⟨parts, hparts, -, hok⟩ | ⟨_, _, _, _, _, _, _, _, hfault⟩ := hcases
    · rw [hok, Except.ok.injEq] at hartifacts
      subst hartifacts
      refine ⟨parts, rfl, hparts.imp fun path part hpart => ⟨hpart, ?_⟩, hwrite⟩
      exact perform_write_of_result generator (onlyReads_emission generator path _) hpart
    · rw [hfault] at hartifacts
      cases hartifacts
  · intro fault hfault
    obtain ⟨parts, -, -, hok⟩ | ⟨before, path, after, found, rfl, hemits, hclasses, hfirst, hfound⟩ :=
      hcases
    · rw [hok] at hfault
      cases hfault
    · rw [hfound, Except.error.injEq] at hfault
      subst hfault
      refine ⟨?_, before, path, after, rfl, hfirst, fun earlier other later hsplit fault =>
        not_fileFault_of_clear hemits hclasses hsplit⟩
      rw [generateDirectory, Store.perform_bind,
        Job.perform_eq_of_isReading (onlyReads_directoryEmission generator directory), hfound]

/-! ### A shared class -/

/-- A tunnelled protocol, in a file whose name begins with a capital. -/
def tunnels : Mapping where
  name := "Tun"
  entries := [⟨4, "IPv4Analyzer", 2⟩]
  name_isWordTail := by decide
  nodup_identifiers := by decide
  nodup_slotNames := by decide
  not_reserved := by decide

/-- No protocols, in a file called alike. -/
def noTunnels : Mapping where
  name := "tun"
  entries := []
  name_isWordTail := by decide
  nodup_identifiers := by decide
  nodup_slotNames := by decide
  not_reserved := by decide

/-- A directory with two files that have one class, the second of which is also empty, and a file
behind them that cannot be read. -/
def sharedClass : Store where
  home := []
  nodes := [(["maps"], .directory),
    (["Tun", "maps"], .file (.regular "protocols\n0x4 IPv4Analyzer\n".toUTF8)),
    (["tun", "maps"], .file (.regular "protocols\n".toUTF8)),
    (["zip", "maps"], .file (.regular "protocols\n0x4\n".toUTF8))]

theorem mappingFiles_sharedClass : (mappingFiles ⟨"maps"⟩).result sharedClass =
    .ok [⟨"maps/Tun"⟩, ⟨"maps/tun"⟩, ⟨"maps/zip"⟩] := by
  have hdirectory : (requireDirectory ⟨"maps"⟩).result sharedClass = .ok () := by decide +kernel
  have hentries : (Job.attempt .list ⟨"maps"⟩ (Script.request (.list ⟨"maps"⟩))).result sharedClass =
      .ok [("Tun", .file), ("tun", .file), ("zip", .file)] := by decide +kernel
  have hnames : ([("Tun", Kind.file), ("tun", .file), ("zip", .file)].map (·.1)).filter
      (!isHidden ·) = ["Tun", "tun", "zip"] := by decide
  have hfiles : (["Tun", "tun", "zip"].forM fun name =>
      requireFile (Path.join ⟨"maps"⟩ name)).result sharedClass = .ok () := by decide +kernel
  have hsorted : (["Tun", "tun", "zip"].mergeSort fun a b => a ≤ b) = ["Tun", "tun", "zip"] :=
    List.mergeSort_of_pairwise (by decide)
  rw [result_mappingFiles, hdirectory, hentries]
  simp only [bind, Except.bind, hnames, hfiles, hsorted]
  decide

theorem isAt_sharedClass : tunnels.IsAt sharedClass {} ⟨"maps/Tun"⟩ ∧
    noTunnels.IsAt sharedClass {} ⟨"maps/tun"⟩ := by
  have hread : sharedClass.read ⟨"maps/Tun"⟩ = .ok "protocols\n0x4 IPv4Analyzer\n".toUTF8 := by rfl
  have hread' : sharedClass.read ⟨"maps/tun"⟩ = .ok "protocols\n".toUTF8 := by rfl
  have hentries : Mapping.readEntries tunnels.name "protocols\n0x4 IPv4Analyzer\n" {} =
      .ok tunnels.entries := by rfl
  have hentries' : Mapping.readEntries noTunnels.name "protocols\n" {} = .ok noTunnels.entries := by
    rfl
  exact ⟨⟨_, _, hread, String.fromUTF8?_toUTF8 _, Mapping.ofSource_of_readEntries hentries⟩,
    ⟨_, _, hread', String.fromUTF8?_toUTF8 _, Mapping.ofSource_of_readEntries hentries'⟩⟩

theorem emits_tunnels :
    ∃ artifacts, Emits sharedClass ⟨{}, ⟨"."⟩⟩ ⟨"maps/Tun"⟩ artifacts := by
  have hne : tunnels.slots ≠ [] := by decide
  have hlimit : ∀ a ∈ tunnels.slots, ∀ b ∈ tunnels.slots,
      TablePlan.span a.identifier b.identifier ≤ standardTableLimit := by decide
  obtain ⟨table, htable⟩ := TablePlan.exists_ofMapping hne hlimit
  have harray : Artifact.emit tunnels .array {} =
      .ok (Artifact.ofPlan Target.standard "Tun" (.array table)) := by
    rw [Artifact.emit, Plan.ofMapping]
    exact congrArg (fun result => (Except.map Plan.array result).map _) htable
  have hall : ∃ artifacts, emitAll {} tunnels Strategy.all = .ok artifacts := by
    simp only [emitAll, Strategy.all, List.mapM_cons, List.mapM_nil, harray]
    exact ⟨_, rfl⟩
  obtain ⟨artifacts, hartifacts⟩ := hall
  refine ⟨artifacts, ?_⟩
  rw [Emits, result_emission, Job.result, perform_load isAt_sharedClass.1]
  exact hartifacts

/-- The second file is blamed for the class of the first, and neither for being empty nor for the file
behind it. Nothing is written. -/
theorem directory_sharedClass :
    (mappingFiles ⟨"maps"⟩).result sharedClass =
        .ok [⟨"maps/Tun"⟩, ⟨"maps/tun"⟩, ⟨"maps/zip"⟩] ∧
      sharedClass.perform (generateDirectory ⟨{}, ⟨"."⟩⟩ ⟨"maps"⟩) =
        (.error (.classCollision "GeneratedIfTun" ⟨"maps/Tun"⟩ ⟨"maps/tun"⟩), sharedClass) := by
  have hfile : (requireFile ⟨"maps/Tun"⟩).result sharedClass = .ok () := by decide +kernel
  have hfile' : (requireFile ⟨"maps/tun"⟩).result sharedClass = .ok () := by decide +kernel
  obtain ⟨artifacts, hemits⟩ := emits_tunnels
  have hload : (load ⟨{}, ⟨"."⟩⟩ ⟨"maps/tun"⟩).result sharedClass = .ok noTunnels := by
    rw [Job.result, perform_load isAt_sharedClass.2]
  have hfault : FileFault sharedClass ⟨{}, ⟨"."⟩⟩ ([] ++ [⟨"maps/Tun"⟩]) ⟨"maps/tun"⟩
      (.classCollision "GeneratedIfTun" ⟨"maps/Tun"⟩ ⟨"maps/tun"⟩) :=
    .owned hload ⟨[], [], rfl, by decide, List.forall_mem_nil _⟩
  have hemission : (directoryEmission ⟨{}, ⟨"."⟩⟩ ⟨"maps"⟩).result sharedClass =
      .error (.classCollision "GeneratedIfTun" ⟨"maps/Tun"⟩ ⟨"maps/tun"⟩) := by
    have hfree : ∀ other ∈ ([] : List Path), ¬ SameClass other ⟨"maps/Tun"⟩ := List.forall_mem_nil _
    have hrun := emitFiles_of_free hfile hemits hfree [⟨"maps/tun"⟩, ⟨"maps/zip"⟩]
    rw [emitFiles_of_fileFault hfile' hfault] at hrun
    rw [directoryEmission, Job.result_bind (onlyReads_mappingFiles _), mappingFiles_sharedClass]
    exact hrun
  obtain ⟨-, -, -, hfails⟩ :=
    directory_agrees_with_files sharedClass ⟨{}, ⟨"."⟩⟩ ⟨"maps"⟩ mappingFiles_sharedClass
  exact ⟨mappingFiles_sharedClass, (hfails _ hemission).1⟩

end Generator

end Switchboard
