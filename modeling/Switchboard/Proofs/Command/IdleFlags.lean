import Switchboard.Proofs.Command.Agreement
import Switchboard.Proofs.Command.Resolve
import Switchboard.Proofs.Command.RoundTrip

/-!
Flags that a command accepts and does not use have no effect. Their values are not all dropped: an
indentation and a limit for tables become part of the configuration that checking and resolving hand
to every stage they reach. So two runs are compared stage by stage. Reading a mapping looks at the
width and the marker alone, laying it out looks at the limit besides, and nothing else of the
configuration is looked at. Commands made of values that agree but for idle flags are therefore one
and the same script (`scriptOf_eq`), which does the same with every answer, be it a mapping or a
fault.

On a command line the values of some flags are the work of the arguments that give them, so lines
that are the same without these arguments come to values that agree (`AgreeBut.addFlags`).
-/

namespace Switchboard

open Disk

/-! ### What a configuration is read for -/

/-- The configurations read mappings in the same way. -/
structure Config.ReadsAlike (config config' : Config) : Prop where
  width_eq : config.width = config'.width
  marker_eq : config.marker = config'.marker

namespace Config.ReadsAlike

variable {config config' : Config} (h : config.ReadsAlike config')

include h

theorem readEntries_eq (name source : String) :
    Mapping.readEntries name source config = Mapping.readEntries name source config' := by
  simp only [Mapping.readEntries, h.width_eq, h.marker_eq]

theorem ofSource_eq (name source : String) :
    Mapping.ofSource name source config = Mapping.ofSource name source config' := by
  simp only [Mapping.ofSource, h.readEntries_eq]

theorem loadMapping_eq (path : Path) : Mapping.load config path = Mapping.load config' path := by
  simp only [Mapping.load, h.ofSource_eq]

/-- The root of a generator is for writing only. -/
theorem load_eq (root root' path : Path) :
    Generator.load ⟨config, root⟩ path = Generator.load ⟨config', root'⟩ path := by
  simp only [Generator.load, h.loadMapping_eq]

end Config.ReadsAlike

theorem Plan.ofMapping_eq_of_tableLimit_eq {config config' : Config}
    (h : config.tableLimit = config'.tableLimit) (strategy : Strategy) (mapping : Mapping) :
    ofMapping strategy mapping config = ofMapping strategy mapping config' := by
  cases strategy with
  | switch | chain => rfl
  | array => simp only [ofMapping, h]

namespace Command

section

variable {config config' : Config} (terminal : Bool) (path : Path)

theorem run_check_eq (h : config.ReadsAlike config') (reporting : Reporting) :
    run terminal (.check path config reporting) = run terminal (.check path config' reporting) := by
  simp only [run, h.load_eq shownRoot shownRoot]

theorem run_resolve_eq (h : config.ReadsAlike config')
    (hlimit : config.tableLimit = config'.tableLimit) (strategy : Strategy)
    (identifiers : List Identifier) (coloring : Coloring) :
    run terminal (.resolve strategy path identifiers config coloring) =
      run terminal (.resolve strategy path identifiers config' coloring) := by
  simp only [run, h.load_eq shownRoot shownRoot, Plan.ofMapping_eq_of_tableLimit_eq hlimit]

end

/-! ### Values that agree but for some flags -/

/-- The same has been found, except of some flags. -/
structure Matches.AgreeBut (ids : List ArgumentId) (found found' : Matches) : Prop where
  values : ∀ id, id ∉ ids → found.values id = found'.values id
  counts : found.counts = found'.counts

/-- The script of the command that values make, if they make one. -/
def scriptOf (verb : Verb) (found : Matches) : Option (Bool → Script Outcome) :=
  (ofMatches? verb found).map fun command terminal => run terminal command

section

variable {verb : Verb} {found found' : Matches} {command : Command}

namespace Matches.AgreeBut

theorem one?_eq {ids : List ArgumentId} (h : AgreeBut ids found found') {id : ArgumentId}
    (hid : id ∉ ids) : found.one? id = found'.one? id := by
  rw [one?, one?, h.values id hid]

theorem eq_of_nil (h : AgreeBut [] found found') : found = found' :=
  Matches.ext (funext fun id => h.values id List.not_mem_nil) h.counts

theorem coloring_eq {ids : List ArgumentId} (h : AgreeBut ids found found') (hcolor : .color ∉ ids) :
    Coloring.ofMatches found = Coloring.ofMatches found' := by
  rw [Coloring.ofMatches, Coloring.ofMatches, h.one?_eq hcolor]

theorem readsAlike {ids : List ArgumentId} (h : AgreeBut ids found found') (hwidth : .width ∉ ids)
    (hmarker : .marker ∉ ids) :
    (ConfigParams.ofMatches found).config.ReadsAlike (ConfigParams.ofMatches found').config := by
  have hconfig (params : ConfigParams) :
      params.config.width = params.width ∧ params.config.marker = params.marker := by
    rcases params with ⟨width, indent, marker, tableLimit⟩
    cases tableLimit <;> exact ⟨rfl, rfl⟩
  refine ⟨?_, ?_⟩
  · simp only [hconfig, ConfigParams.ofMatches, h.one?_eq hwidth]
  · simp only [hconfig, ConfigParams.ofMatches, h.one?_eq hmarker]

theorem tableLimit_eq {ids : List ArgumentId} (h : AgreeBut ids found found')
    (hlimit : .tableLimit ∉ ids) :
    (ConfigParams.ofMatches found).config.tableLimit =
      (ConfigParams.ofMatches found').config.tableLimit := by
  simp only [ConfigParams.config, ConfigParams.ofMatches, h.one?_eq hlimit]
  cases found'.one? .tableLimit <;> rfl

end Matches.AgreeBut

/-- The values of idle flags have no influence on the script. -/
theorem scriptOf_eq (h : found.AgreeBut verb.idleFlags found') :
    scriptOf verb found = scriptOf verb found' := by
  cases verb with
  | one strategy | all | clean => rw [h.eq_of_nil]
  | check =>
      have hreads := h.readsAlike (by decide) (by decide)
      simp only [scriptOf, ofMatches?, Params.ofMatches?, h.counts, h.coloring_eq (by decide),
        h.one?_eq (show .mapping ∉ Verb.check.idleFlags by decide)]
      cases found'.one? .mapping with
      | none => rfl
      | some path =>
          exact congrArg some (funext fun terminal => run_check_eq terminal path hreads _)
  | dump =>
      -- The root is all that is idle here, and it is not part of the command.
      have hconfig : ConfigParams.ofMatches found = ConfigParams.ofMatches found' := by
        simp only [ConfigParams.ofMatches,
          h.one?_eq (show .width ∉ Verb.dump.idleFlags by decide),
          h.one?_eq (show .marker ∉ Verb.dump.idleFlags by decide),
          h.one?_eq (show .indent ∉ Verb.dump.idleFlags by decide),
          h.one?_eq (show .tableLimit ∉ Verb.dump.idleFlags by decide)]
      simp only [scriptOf, ofMatches?, Params.ofMatches?, hconfig, h.coloring_eq (by decide),
        h.one?_eq (show .strategy ∉ Verb.dump.idleFlags by decide),
        h.one?_eq (show .mapping ∉ Verb.dump.idleFlags by decide)]
  | resolve =>
      have hreads := h.readsAlike (by decide) (by decide)
      have hlimit := h.tableLimit_eq (by decide)
      simp only [scriptOf, ofMatches?, Params.ofMatches?, h.coloring_eq (by decide),
        h.one?_eq (show .strategy ∉ Verb.resolve.idleFlags by decide),
        h.one?_eq (show .mapping ∉ Verb.resolve.idleFlags by decide),
        h.values .identifiers (by decide)]
      cases hname : found'.one? .strategy with
      | none => rfl
      | some name =>
          cases hstrategy : Strategy.ofName? name with
          | none => simp [hstrategy]
          | some strategy =>
              cases hmapping : found'.one? .mapping with
              | none => simp
              | some path =>
                  simp only [Option.bind_eq_bind, Option.bind_some, hstrategy]
                  exact congrArg some (funext fun terminal =>
                    run_resolve_eq terminal path hreads hlimit strategy _ _)

theorem run_conclude_unchanged {α : Type} {job : Job α} (hreads : OnlyReads job)
    (palette : Palette) (report : α → Outcome) (store : Store) :
    (store.run (conclude palette job report)).2 = store :=
  congrArg Prod.snd (run_conclude_of_onlyReads hreads report)

/-- A command with idle flags changes nothing. -/
theorem run_unchanged (hverb : verb.idleFlags ≠ []) (h : ofMatches? verb found = some command)
    (terminal : Bool) (store : Store) : (store.run (run terminal command)).2 = store := by
  obtain ⟨params, hparams, rfl⟩ := Option.map_eq_some_iff.1 h
  cases verb with
  | one strategy | all | clean => exact absurd rfl hverb
  | check =>
      obtain ⟨path, -, hparams⟩ := Option.bind_eq_some_iff.1 hparams
      cases hparams
      exact run_conclude_unchanged (Generator.onlyReads_load _ path) _ _ store
  | dump =>
      obtain ⟨name, -, hparams⟩ := Option.bind_eq_some_iff.1 hparams
      obtain ⟨strategy, -, hparams⟩ := Option.bind_eq_some_iff.1 hparams
      obtain ⟨path, -, hparams⟩ := Option.bind_eq_some_iff.1 hparams
      cases hparams
      exact run_conclude_unchanged (Generator.onlyReads_render _ path strategy) _ _ store
  | resolve =>
      obtain ⟨name, -, hparams⟩ := Option.bind_eq_some_iff.1 hparams
      obtain ⟨strategy, -, hparams⟩ := Option.bind_eq_some_iff.1 hparams
      obtain ⟨path, -, hparams⟩ := Option.bind_eq_some_iff.1 hparams
      cases hparams
      exact run_conclude_unchanged (Generator.onlyReads_plan _ path strategy) _ _ store

/-- On every store the commands come to the same outcome and leave the store as it was. -/
def RunAlike (command command' : Command) : Prop :=
  ∀ (terminal : Bool) (store : Store), ∃ outcome,
    store.run (run terminal command) = (outcome, store) ∧
    store.run (run terminal command') = (outcome, store)

/-- Values that agree but for idle flags make commands that run alike, if they make commands. -/
theorem exists_runAlike (hverb : verb.idleFlags ≠ []) (hagree : found.AgreeBut verb.idleFlags found')
    (h : ofMatches? verb found = some command) :
    ∃ command', ofMatches? verb found' = some command' ∧ RunAlike command command' := by
  have hscript : scriptOf verb found' = some fun terminal => run terminal command := by
    rw [← scriptOf_eq hagree, scriptOf, h]
    rfl
  obtain ⟨command', hcommand', hrun⟩ := Option.map_eq_some_iff.1 hscript
  refine ⟨command', hcommand', fun terminal store => ?_⟩
  have hunchanged : store.run (run terminal command) =
      ((store.run (run terminal command)).1, store) :=
    Prod.ext rfl (run_unchanged hverb h terminal store)
  exact ⟨_, hunchanged, (congrArg store.run (congrFun hrun terminal)).trans hunchanged⟩

end

/-! ### Arguments without some flags -/

/-- The argument gives a value to one of the flags. -/
def Argument.sets (ids : List ArgumentId) (argument : Argument) : Bool :=
  argument.setting?.any fun setting => ids.contains setting.flag.id

section

variable {ids : List ArgumentId} {found found' : Matches}

/-- What is added to both is the same, except of the flags. -/
theorem Matches.AgreeBut.apply (h : found.AgreeBut ids found') (token : Token) :
    (token.apply found).AgreeBut ids (token.apply found') := by
  cases token with
  | flag flag text value =>
      refine ⟨fun id hid => ?_, h.counts⟩
      by_cases heq : flag.id = id
      · subst heq
        exact (found.values_set_self _).trans (found'.values_set_self _).symm
      · exact (found.values_set_of_ne heq _).trans
          ((h.values id hid).trans (found'.values_set_of_ne heq _).symm)
  | counter counter =>
      refine ⟨h.values, ?_⟩
      funext id
      simp only [Token.apply, Matches.count, h.counts]
  | word text => exact h

theorem Matches.AgreeBut.apply_of_sets (h : found.AgreeBut ids found') {argument : Argument}
    (hsets : argument.sets ids) : (argument.token.apply found).AgreeBut ids found' := by
  cases argument with
  | setting setting text =>
      refine ⟨fun id hid => ?_, h.counts⟩
      have hmem : setting.flag.id ∈ ids := List.contains_iff_mem.1 hsets
      have hne : setting.flag.id ≠ id := fun heq => hid (heq ▸ hmem)
      exact (found.values_set_of_ne hne _).trans (h.values id hid)
  | verbose | positional => cases hsets

/-- Without the arguments that give some flags their values, only these values are lost. -/
theorem Matches.AgreeBut.addFlags (h : found.AgreeBut ids found') (arguments : List Argument) :
    (addFlags arguments found).AgreeBut ids
      (Command.addFlags (arguments.filter (!·.sets ids)) found') := by
  induction arguments generalizing found found' with
  | nil => exact h
  | cons argument rest ih =>
      by_cases hsets : argument.sets ids
      · rw [List.filter_cons_of_neg (by simp [hsets])]
        exact ih (h.apply_of_sets hsets)
      · rw [List.filter_cons_of_pos (by simp [hsets])]
        exact ih (h.apply argument.token)

end

/-! ### Command lines -/

/-- The arguments may stand behind the command: flags that it accepts, no flag twice but `-v`, and
operands in their turn. -/
structure WellFormed (verb : Verb) (arguments : List Argument) : Prop where
  spelled : ∀ argument ∈ arguments, argument.Spelled
  accepted : ∀ argument ∈ arguments, argument.IsAccepted verb
  once : ((arguments.filterMap Argument.setting?).map (·.flag.id)).Nodup
  taken : ∃ last, Takes verb.operands ((arguments.map Argument.token).filterMap Token.word?)
    verb.standard last

section

variable {verb : Verb}

theorem read_of_found {engine : Engine} {texts : List String} {found : Matches}
    (h : engine signatures texts = .ok (verb.name, found)) :
    read engine texts = .ok (ofMatches? verb found) := by
  rw [read, readParams_of_found h]
  rfl

/-- What the arguments are without some flags decides which words there are. -/
theorem filterMap_word?_of_filter_eq {ids : List ArgumentId} {arguments arguments' : List Argument}
    (h : arguments.filter (!·.sets ids) = arguments'.filter (!·.sets ids)) :
    (arguments.map Argument.token).filterMap Token.word? =
      (arguments'.map Argument.token).filterMap Token.word? := by
  have hfilter (list : List Argument) : (list.map Argument.token).filterMap Token.word? =
      ((list.filter (!·.sets ids)).map Argument.token).filterMap Token.word? := by
    rw [List.filterMap_map, List.filterMap_map, List.filterMap_filter]
    refine List.filterMap_congr fun argument _ => ?_
    cases argument with
    | setting setting text => simp [Argument.token, Token.word?]
    | verbose | positional => rfl
  rw [hfilter, h, ← hfilter]

/-- Flags that a command accepts and does not use have no effect. If values make the command, then so
do values that differ from them for these flags alone, and on every store both commands have the same
output, diagnostics and exit status and leave the store as it was, whether they succeed or fail. So
it is with two command lines on which an engine finds such values, in whatever way they are spelled.
In particular these flags, with any of their values, may be put into a well-formed command line or
taken out of it, wherever they stand, if the engine keeps its promises. -/
theorem idle_flags_have_no_effect (hverb : verb.idleFlags ≠ []) :
    (∀ {found found' : Matches} {command : Command}, found.AgreeBut verb.idleFlags found' →
      ofMatches? verb found = some command →
      ∃ command', ofMatches? verb found' = some command' ∧ RunAlike command command') ∧
    ∀ {engine : Engine},
      (∀ {texts texts' : List String} {found found' : Matches} {command : Command},
        engine signatures texts = .ok (verb.name, found) →
        engine signatures texts' = .ok (verb.name, found') →
        found.AgreeBut verb.idleFlags found' → read engine texts = .ok (some command) →
        ∃ command', read engine texts' = .ok (some command') ∧ RunAlike command command') ∧
      (Documented engine signatures →
        ∀ {arguments arguments' : List Argument} {command : Command},
          WellFormed verb arguments → WellFormed verb arguments' →
          arguments.filter (!·.sets verb.idleFlags) =
            arguments'.filter (!·.sets verb.idleFlags) →
          read engine (verb.name :: arguments.map Argument.text) = .ok (some command) →
          ∃ command', read engine (verb.name :: arguments'.map Argument.text) =
            .ok (some command') ∧ RunAlike command command') := by
  have hread {engine : Engine} {texts texts' : List String} {found found' : Matches}
      {command : Command} (h : engine signatures texts = .ok (verb.name, found))
      (h' : engine signatures texts' = .ok (verb.name, found'))
      (hagree : found.AgreeBut verb.idleFlags found') (hread : read engine texts = .ok (some command)) :
      ∃ command', read engine texts' = .ok (some command') ∧ RunAlike command command' := by
    rw [read_of_found h] at hread
    rw [read_of_found h']
    obtain ⟨command', hcommand', halike⟩ := exists_runAlike hverb hagree (Except.ok.inj hread)
    exact ⟨command', congrArg _ hcommand', halike⟩
  refine ⟨exists_runAlike hverb, hread, ?_⟩
  intro hengine arguments arguments' command h h' hfilter hcommand
  obtain ⟨last, htaken⟩ := h.taken
  have htaken' := filterMap_word?_of_filter_eq hfilter ▸ htaken
  have hself : last.AgreeBut verb.idleFlags last := ⟨fun _ _ => rfl, rfl⟩
  -- Both agree with what is left without the idle flags.
  have hagree := hself.addFlags arguments
  have hagree' := hself.addFlags arguments'
  rw [hfilter] at hagree
  exact hread (engine_arguments hengine h.spelled h.accepted h.once htaken)
    (engine_arguments hengine h'.spelled h'.accepted h'.once htaken')
    ⟨fun id hid => (hagree.values id hid).trans (hagree'.values id hid).symm,
      hagree.counts.trans hagree'.counts.symm⟩ hcommand

/-- A check with every idle flag, in three different spellings, one of which is a limit that no
table of the mapping keeps to; and resolving with idle flags in front of the operands and between
them. -/
theorem idle_flags_ipProtocols :
    (∃ command command',
      read Reader.commandLine ["check", "maps/ip", "-v"] = .ok (some command) ∧
      read Reader.commandLine
          ["check", "-obuild", "maps/ip", "--indent", "4", "-v", "--max-table-len=1"] =
        .ok (some command') ∧
      RunAlike command command' ∧
      (ipProtocolsStore.run (run false command)).1 =
        { diagnostics := "note: ip: 3 entries, identifiers 0x1..=0x11\n" }) ∧
    ∃ command command',
      read Reader.commandLine ["resolve", "array", "maps/ip", "11"] = .ok (some command) ∧
      read Reader.commandLine
          ["resolve", "--indent=tab", "array", "--out-dir=build", "maps/ip", "11"] =
        .ok (some command') ∧
      RunAlike command command' := by
  constructor
  · have hfound : ∃ found found' : Matches,
        Reader.commandLine signatures ["check", "maps/ip", "-v"] = .ok (Verb.check.name, found) ∧
        Reader.commandLine signatures
            ["check", "-obuild", "maps/ip", "--indent", "4", "-v", "--max-table-len=1"] =
          .ok (Verb.check.name, found') ∧
        found.AgreeBut Verb.check.idleFlags found' := by
      refine ⟨_, _, rfl, rfl, fun id hid => ?_, ?_⟩
      · cases id <;> first | rfl | exact absurd (by decide) hid
      · funext id
        cases id <;> rfl
    obtain ⟨found, found', hfound, hfound', hagree⟩ := hfound
    have hread : read Reader.commandLine ["check", "maps/ip", "-v"] =
        .ok (some (.check ⟨"maps/ip"⟩ {} ⟨1, .auto⟩)) := by rfl
    have hverb : Verb.check.idleFlags ≠ [] := by decide
    obtain ⟨command', hread', halike⟩ :=
      (idle_flags_have_no_effect hverb).2.1 hfound hfound' hagree hread
    refine ⟨_, command', hread, hread', halike, ?_⟩
    rw [run, run_conclude (perform_load isAt_ipProtocolsStore shownRoot)]
    rfl
  · let operands : List Argument :=
      [.positional (.strategy .array) "array", .positional (.mapping ⟨"maps/ip"⟩) "maps/ip",
        .positional (.identifier 0x11) "11"]
    let arguments : List Argument :=
      [.setting (.indent .tab) "tab", .positional (.strategy .array) "array",
        .setting (.outRoot ⟨"build"⟩) "build", .positional (.mapping ⟨"maps/ip"⟩) "maps/ip",
        .positional (.identifier 0x11) "11"]
    have hspelled : ∀ argument ∈ operands, argument.Spelled := by
      simp only [operands, List.forall_mem_cons]
      exact ⟨rfl, ⟨rfl, by decide, by decide⟩, rfl, List.forall_mem_nil _⟩
    have hspelled' : ∀ argument ∈ arguments, argument.Spelled := by
      simp only [arguments, List.forall_mem_cons]
      exact ⟨rfl, rfl, ⟨rfl, by decide⟩, ⟨rfl, by decide, by decide⟩, rfl, List.forall_mem_nil _⟩
    have hmakes : Makes {} 0 .resolve
        (.strategy .array :: .mapping ⟨"maps/ip"⟩ :: [0x11].map .identifier) _ _ :=
      .resolve .array ⟨"maps/ip"⟩ (by decide)
    obtain ⟨last, htakes, -⟩ := takes_of_makes hmakes (forall₂_spelled hspelled)
    have hoperands : WellFormed .resolve operands :=
      ⟨hspelled, by simp [operands, Argument.IsAccepted], by decide, last, htakes⟩
    have harguments : WellFormed .resolve arguments :=
      ⟨hspelled', by simp [arguments, Argument.IsAccepted, Setting.flag, Verb.flags, Flag.output],
        by decide, last, htakes⟩
    have hengine : Documented Reader.commandLine signatures :=
      Reader.documented_commandLine wellFormed_signatures
    have hread : read Reader.commandLine ["resolve", "array", "maps/ip", "11"] =
        .ok (some (.resolve .array ⟨"maps/ip"⟩ [0x11] {} .auto)) := by rfl
    have hverb : Verb.resolve.idleFlags ≠ [] := by decide
    obtain ⟨command', hread', halike⟩ :=
      (idle_flags_have_no_effect hverb).2.2 hengine hoperands harguments rfl hread
    exact ⟨_, command', hread, hread', halike⟩

end

end Command

end Switchboard
