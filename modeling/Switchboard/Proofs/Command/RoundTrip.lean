import Mathlib.Data.List.Forall2
import Mathlib.Data.List.Nodup
import Switchboard.Command.Arguments
import Switchboard.Proofs.Command.Reader
import Switchboard.Proofs.Command.Tokens

/-!
What is written on a command line is what the program takes from it, wherever the flags stand. This
holds with every engine that keeps its promises. The engine is relied on for the texts that belong
together and for nothing else: which values there are, what stands for one that is not given, and
which of them a command carries is decided here.
-/

namespace Switchboard.Command

/-! ### Flags that are given -/

/-- The values of some flags. -/
structure Options where
  width : Option Width := none
  marker : Option String := none
  outRoot : Option Path := none
  indent : Option Indent := none
  tableLimit : Option Nat := none
  coloring : Option Coloring := none

namespace Options

variable {options : Options} {verbosity : Nat} {setting : Setting} {arguments : List Argument}
  {found last : Matches}

/-- The flags as they are given, one for each value. -/
def given (options : Options) : List Setting :=
  (options.width.map .width).toList ++ (options.marker.map .marker).toList ++
    (options.outRoot.map .outRoot).toList ++ (options.indent.map .indent).toList ++
    (options.tableLimit.map .tableLimit).toList ++ (options.coloring.map .color).toList

/-- The value of a flag, if it is given. -/
def value? (options : Options) : (id : ArgumentId) → Option id.Value
  | .width => options.width.map Width.name
  | .marker => options.marker
  | .outRoot => options.outRoot
  | .indent => options.indent
  | .tableLimit => options.tableLimit
  | .color => options.coloring.map Coloring.name
  | .mapping | .directory | .strategy | .identifiers | .verbose => none

theorem value?_of_mem_given (h : setting ∈ options.given) :
    options.value? setting.flag.id = some setting.value := by
  cases setting <;> simp_all [given, value?, Setting.flag, Setting.value, Flag.width, Flag.marker,
    Flag.outRoot, Flag.indent, Flag.tableLimit, Flag.color]

theorem exists_mem_given {id : ArgumentId} {value : id.Value} (h : options.value? id = some value) :
    ∃ setting ∈ options.given, setting.flag.id = id := by
  cases id with
  | mapping | directory | strategy | identifiers | verbose => cases h
  | width =>
      obtain ⟨width, hwidth, -⟩ := Option.map_eq_some_iff.1 h
      exact ⟨.width width, by simp [given, hwidth], rfl⟩
  | marker => exact ⟨.marker value, by simp_all [given, value?], rfl⟩
  | outRoot => exact ⟨.outRoot value, by simp_all [given, value?], rfl⟩
  | indent => exact ⟨.indent value, by simp_all [given, value?], rfl⟩
  | tableLimit => exact ⟨.tableLimit value, by simp_all [given, value?], rfl⟩
  | color =>
      obtain ⟨coloring, hcoloring, -⟩ := Option.map_eq_some_iff.1 h
      exact ⟨.color coloring, by simp [given, hcoloring], rfl⟩

theorem nodup_given (options : Options) : (options.given.map (·.flag.id)).Nodup := by
  have hvalue {α : Type} (setting : α → Setting) {id : ArgumentId}
      (hid : ∀ a, (setting a).flag.id = id) (value : Option α) :
      ((value.map setting).toList.map (·.flag.id)).Sublist [id] := by
    cases value with
    | none => exact List.nil_sublist _
    | some a => simp [hid]
  have hsublist : (options.given.map (·.flag.id)).Sublist
      ([.width] ++ [.marker] ++ [.outRoot] ++ [.indent] ++ [.tableLimit] ++ [.color]) := by
    simp only [given, List.map_append]
    exact hvalue .width (fun _ => rfl) _
      |>.append (hvalue .marker (fun _ => rfl) _)
      |>.append (hvalue .outRoot (fun _ => rfl) _)
      |>.append (hvalue .indent (fun _ => rfl) _)
      |>.append (hvalue .tableLimit (fun _ => rfl) _)
      |>.append (hvalue .color (fun _ => rfl) _)
  exact hsublist.nodup (by decide)

/-- Flags that are given have been added to what was found without them. -/
structure Adds (options : Options) (verbosity : Nat) (found last : Matches) : Prop where
  values : ∀ id, last.values id = ((options.value? id).map ([·])).getD (found.values id)
  counts : last.counts .verbose = min verbosity 255

theorem adds_addFlags (hgiven : (arguments.filterMap Argument.setting?).Perm options.given)
    (hcounts : found.counts .verbose = 0) :
    options.Adds (arguments.countP Argument.isVerbose) found (addFlags arguments found) where
  values id := by
    have honce : ((arguments.filterMap Argument.setting?).map (·.flag.id)).Nodup :=
      (hgiven.map _).nodup_iff.2 options.nodup_given
    cases hvalue : options.value? id with
    | some value =>
        obtain ⟨setting, hsetting, rfl⟩ := exists_mem_given hvalue
        rw [values_addFlags _ (hgiven.symm.subset hsetting) honce]
        rw [value?_of_mem_given hsetting] at hvalue
        rw [Option.some.inj hvalue]
        rfl
    | none =>
        refine values_addFlags_of_ne _ fun setting hsetting hid => ?_
        subst hid
        rw [value?_of_mem_given (hgiven.subset hsetting)] at hvalue
        cases hvalue
  counts := by
    rw [counts_addFlags _ (by omega), hcounts, Nat.zero_add]

/-! ### What a command carries -/

def configParams (options : Options) : ConfigParams where
  width := options.width.getD .u16
  indent := options.indent.getD .tab
  marker := options.marker
  tableLimit? := options.tableLimit

/-- Without a value, a flag has the one that is documented. -/
def config (options : Options) : Config where
  width := options.width.getD .u16
  indent := options.indent.getD .tab
  marker := options.marker
  tableLimit := options.tableLimit.getD 16777216

def outRootOrHere (options : Options) : Path :=
  options.outRoot.getD ⟨"."⟩

def coloringOrAuto (options : Options) : Coloring :=
  options.coloring.getD .auto

theorem config_configParams (options : Options) : options.configParams.config = options.config := by
  have hlimit : standardTableLimit = 16777216 := rfl
  rcases options with ⟨width, marker, outRoot, indent, tableLimit, coloring⟩
  cases tableLimit with
  | none => simp only [ConfigParams.config, configParams, config, hlimit, Option.getD_none]
  | some limit => rfl

namespace Adds

theorem values_eq (h : options.Adds verbosity found last) {id : ArgumentId}
    (hid : options.value? id = none) : last.values id = found.values id := by
  rw [h.values, hid]
  rfl

theorem configParams_eq (h : options.Adds verbosity found last) (hwidth : found.values .width = ["u16"])
    (hindent : found.values .indent = [.tab]) (hmarker : found.values .marker = [])
    (hlimit : found.values .tableLimit = []) : ConfigParams.ofMatches last = options.configParams := by
  simp only [ConfigParams.ofMatches, configParams, Matches.one?, h.values, hwidth, hindent, hmarker,
    hlimit]
  rcases options with ⟨width, marker, outRoot, indent, tableLimit, coloring⟩
  congr 1
  · cases width with
    | none => rfl
    | some width => exact congrArg (·.getD default) (Width.ofName?_name width)
  · cases indent <;> rfl
  · cases marker <;> rfl
  · cases tableLimit <;> rfl

theorem outRoot_eq (h : options.Adds verbosity found last) (houtRoot : found.values .outRoot = [⟨"."⟩]) :
    outRootOf last = options.outRootOrHere := by
  rw [outRootOf, Matches.one?, h.values, houtRoot, outRootOrHere]
  rcases options with ⟨width, marker, outRoot, indent, tableLimit, coloring⟩
  cases outRoot <;> rfl

theorem coloring_eq (h : options.Adds verbosity found last) (hcolor : found.values .color = ["auto"]) :
    Coloring.ofMatches last = options.coloringOrAuto := by
  rw [Coloring.ofMatches, Matches.one?, h.values, hcolor, coloringOrAuto]
  rcases options with ⟨width, marker, outRoot, indent, tableLimit, coloring⟩
  rcases coloring with _ | coloring
  · rfl
  · cases coloring <;> rfl

end Adds

end Options

/-- The parameters and the command that options, a number of `-v` and operands make. An output root
that is accepted and not used is not part of either. -/
inductive Makes (options : Options) (verbosity : Nat) :
    Verb → List Positional → Params → Command → Prop
  | one (strategy : Strategy) (path : Path) :
    Makes options verbosity (.one strategy) [.mapping path]
      (.one strategy path options.outRootOrHere options.configParams (min verbosity 255)
        options.coloringOrAuto)
      (.one strategy path options.outRootOrHere options.config
        ⟨min verbosity 255, options.coloringOrAuto⟩)
  | all :
    Makes options verbosity .all []
      (.all none options.outRootOrHere options.configParams (min verbosity 255)
        options.coloringOrAuto)
      (.all none options.outRootOrHere options.config ⟨min verbosity 255, options.coloringOrAuto⟩)
  | allIn (directory : Path) :
    Makes options verbosity .all [.directory directory]
      (.all (some directory) options.outRootOrHere options.configParams (min verbosity 255)
        options.coloringOrAuto)
      (.all (some directory) options.outRootOrHere options.config
        ⟨min verbosity 255, options.coloringOrAuto⟩)
  | clean :
    Makes options verbosity .clean []
      (.clean options.outRootOrHere (min verbosity 255) options.coloringOrAuto)
      (.clean options.outRootOrHere ⟨min verbosity 255, options.coloringOrAuto⟩)
  | check (path : Path) :
    Makes options verbosity .check [.mapping path]
      (.check path options.configParams (min verbosity 255) options.coloringOrAuto)
      (.check path options.config ⟨min verbosity 255, options.coloringOrAuto⟩)
  | dump (strategy : Strategy) (path : Path) :
    Makes options verbosity .dump [.strategy strategy, .mapping path]
      (.dump strategy path options.configParams options.coloringOrAuto)
      (.dump strategy path options.config options.coloringOrAuto)
  | resolve (strategy : Strategy) (path : Path) {identifiers : List Identifier}
    (hne : identifiers ≠ []) :
    Makes options verbosity .resolve
      (.strategy strategy :: .mapping path :: identifiers.map .identifier)
      (.resolve strategy path identifiers options.configParams options.coloringOrAuto)
      (.resolve strategy path identifiers options.config options.coloringOrAuto)

/-! ### What is found -/

/-- What is found of a flag that is not given. -/
def standardValues : (id : ArgumentId) → List id.Value
  | .width => ["u16"]
  | .outRoot => [⟨"."⟩]
  | .indent => [.tab]
  | .color => ["auto"]
  | .mapping | .directory | .strategy | .identifiers | .marker | .tableLimit | .verbose => []

def Verb.standard (verb : Verb) : Matches where
  values id := if verb.flags.any (·.id == id) then standardValues id else []
  counts _ := 0

section

variable {options : Options} {verbosity : Nat} {verb : Verb} {positionals : List Positional}
  {params : Params} {command : Command} {arguments : List Argument} {words : List String}

theorem Verb.flag_cases {flag : Flag} (h : flag ∈ verb.flags) :
    flag = .width ∨ flag = .marker ∨ flag = .outRoot ∨ flag = .indent ∨ flag = .tableLimit ∨
      flag = .color := by
  cases verb with
  | clean => simp only [Verb.flags, List.mem_cons, List.not_mem_nil, or_false] at h; tauto
  | one | all | check | dump | resolve =>
      simpa [Verb.flags, Flag.reading, Flag.output, or_assoc] using h

theorem Verb.isStandard (verb : Verb) : verb.signature.IsStandard verb.standard where
  given flag hflag text htext := by
    have hvalues : verb.standard.values flag.id = standardValues flag.id :=
      if_pos (List.any_eq_true.2 ⟨flag, hflag, beq_self_eq_true flag.id⟩)
    rw [hvalues]
    rcases Verb.flag_cases hflag with rfl | rfl | rfl | rfl | rfl | rfl <;> cases htext
    · exact ⟨"u16", ⟨rfl, by decide⟩, rfl⟩
    · exact ⟨⟨"."⟩, ⟨rfl, by decide⟩, rfl⟩
    · exact ⟨.tab, rfl, rfl⟩
    · exact ⟨"auto", ⟨rfl, by decide⟩, rfl⟩
  missing flag hflag hnone := by
    have hvalues : verb.standard.values flag.id = standardValues flag.id :=
      if_pos (List.any_eq_true.2 ⟨flag, hflag, beq_self_eq_true flag.id⟩)
    rw [hvalues]
    rcases Verb.flag_cases hflag with rfl | rfl | rfl | rfl | rfl | rfl <;> first | rfl | cases hnone
  others id hother := by
    refine if_neg fun hany => ?_
    obtain ⟨flag, hflag, hid⟩ := List.any_eq_true.1 hany
    exact hother flag hflag (eq_of_beq hid)
  counts id := rfl

/-- The words on a command line spell its operands. -/
theorem forall₂_spelled (h : ∀ argument ∈ arguments, argument.Spelled) :
    List.Forall₂ Positional.Spelled (arguments.filterMap Argument.positional?)
      ((arguments.map Argument.token).filterMap Token.word?) := by
  induction arguments with
  | nil => exact .nil
  | cons argument rest ih =>
      obtain ⟨hargument, hrest⟩ := List.forall_mem_cons.1 h
      cases argument with
      | setting | verbose => exact ih hrest
      | positional p text => exact .cons hargument (ih hrest)

/-- Identifiers are taken together, if there are any. -/
theorem takes_identifiers {identifiers : List Identifier} (hne : identifiers ≠ [])
    (hspelled : List.Forall₂ Positional.Spelled (identifiers.map .identifier) words)
    (found : Matches) : Takes [.identifiers] words found (found.set .identifiers identifiers) := by
  have hvalues : List.Forall₂ Operand.identifiers.kind.Accepts words identifiers :=
    ((List.forall₂_map_left_iff.1 hspelled).imp fun _ _ => Positional.accepts_of_spelled).flip
  refine .several found rfl (fun hnil => hne ?_) hvalues
  exact List.length_eq_zero_iff.1 (hvalues.length_eq ▸ List.length_eq_zero_iff.2 hnil)

/-- Operands are taken in their turn, and with any flags they make the parameters. -/
theorem takes_of_makes (h : Makes options verbosity verb positionals params command)
    (hspelled : List.Forall₂ Positional.Spelled positionals words) :
    ∃ last, Takes verb.operands words verb.standard last ∧ last.counts .verbose = 0 ∧
      ∀ found, options.Adds verbosity last found → Params.ofMatches? verb found = some params := by
  -- What is found of the operands does not depend on the flags.
  cases h with
  | one strategy path | check path =>
      cases hspelled with
      | cons hpath hrest =>
          cases hrest
          refine ⟨_, .one rfl (Positional.accepts_of_spelled hpath) (.nothing _ (by simp)), rfl,
            fun found hadds => ?_⟩
          have hmapping : found.values .mapping = [path] := hadds.values_eq rfl
          simp only [Params.ofMatches?, Matches.one?, hmapping, hadds.configParams_eq rfl rfl rfl rfl,
            hadds.outRoot_eq rfl, hadds.coloring_eq rfl, hadds.counts]
          rfl
  | all =>
      cases hspelled
      refine ⟨_, .nothing _ (by simp [Verb.operands, Operand.directory]), rfl, fun found hadds => ?_⟩
      have hdirectory : found.values .directory = [] := hadds.values_eq rfl
      simp only [Params.ofMatches?, Matches.one?, hdirectory,
        hadds.configParams_eq rfl rfl rfl rfl, hadds.outRoot_eq rfl, hadds.coloring_eq rfl,
        hadds.counts]
      rfl
  | allIn directory =>
      cases hspelled with
      | cons hpath hrest =>
          cases hrest
          refine ⟨_, .one rfl (Positional.accepts_of_spelled hpath) (.nothing _ (by simp)), rfl,
            fun found hadds => ?_⟩
          have hdirectory : found.values .directory = [directory] := hadds.values_eq rfl
          simp only [Params.ofMatches?, Matches.one?, hdirectory,
            hadds.configParams_eq rfl rfl rfl rfl, hadds.outRoot_eq rfl, hadds.coloring_eq rfl,
            hadds.counts]
          rfl
  | clean =>
      cases hspelled
      refine ⟨_, .nothing _ (by simp [Verb.operands]), rfl, fun found hadds => ?_⟩
      simp only [Params.ofMatches?, hadds.outRoot_eq rfl, hadds.coloring_eq rfl, hadds.counts]
      rfl
  | dump strategy path =>
      cases hspelled with
      | cons hstrategy hrest =>
          cases hrest with
          | cons hpath hrest =>
              cases hrest
              refine ⟨_, .one rfl (Positional.accepts_of_spelled hstrategy)
                (.one rfl (Positional.accepts_of_spelled hpath) (.nothing _ (by simp))), rfl,
                fun found hadds => ?_⟩
              have hname : found.values .strategy = [strategy.name] := hadds.values_eq rfl
              have hmapping : found.values .mapping = [path] := hadds.values_eq rfl
              simp only [Params.ofMatches?, Matches.one?, hname, hmapping,
                hadds.configParams_eq rfl rfl rfl rfl, hadds.coloring_eq rfl, List.head?_cons,
                Option.bind_eq_bind, Option.bind_some, Strategy.ofName?_name]
              rfl
  | @resolve strategy path identifiers hne =>
      cases hspelled with
      | cons hstrategy hrest =>
          cases hrest with
          | cons hpath hrest =>
              refine ⟨_, .one rfl (Positional.accepts_of_spelled hstrategy)
                (.one rfl (Positional.accepts_of_spelled hpath) (takes_identifiers hne hrest _)), rfl,
                fun found hadds => ?_⟩
              have hname : found.values .strategy = [strategy.name] := hadds.values_eq rfl
              have hmapping : found.values .mapping = [path] := hadds.values_eq rfl
              have hidentifiers : found.values .identifiers = identifiers := hadds.values_eq rfl
              simp only [Params.ofMatches?, Matches.one?, hname, hmapping, hidentifiers,
                hadds.configParams_eq rfl rfl rfl rfl, hadds.coloring_eq rfl, List.head?_cons,
                Option.bind_eq_bind, Option.bind_some, Strategy.ofName?_name]
              rfl

theorem ofParams_of_makes (h : Makes options verbosity verb positionals params command) :
    ofParams params = command := by
  cases h <;> simp only [ofParams, options.config_configParams]

/-! ### Command lines -/

theorem signature_mem_signatures (verb : Verb) : verb.signature ∈ signatures := by
  refine List.mem_map_of_mem ?_
  rcases verb with ⟨_ | _ | _⟩ | _ | _ | _ | _ | _ <;> decide

theorem readParams_of_found {engine : Engine} {texts : List String} {found : Matches}
    (h : engine signatures texts = .ok (verb.name, found)) :
    readParams engine texts = .ok (Params.ofMatches? verb found) := by
  rw [readParams, h]
  simp only [bind, Except.bind, Verb.ofName?_name]
  rfl

/-- What a line of well-formed arguments comes to with every engine that keeps its promises. -/
theorem engine_arguments {engine : Engine} (hengine : Documented engine signatures)
    (hspelled : ∀ argument ∈ arguments, argument.Spelled)
    (haccepted : ∀ argument ∈ arguments, argument.IsAccepted verb)
    (honce : ((arguments.filterMap Argument.setting?).map (·.flag.id)).Nodup) {last : Matches}
    (htakes : Takes verb.operands ((arguments.map Argument.token).filterMap Token.word?)
      verb.standard last) :
    engine signatures (verb.name :: arguments.map Argument.text) =
      .ok (verb.name, addFlags arguments last) := by
  have hof : ∀ token ∈ arguments.map Argument.token, token.IsOf verb.signature := by
    intro token htoken
    obtain ⟨argument, hargument, rfl⟩ := List.mem_map.1 htoken
    exact Argument.isOf_token (hspelled argument hargument) (haccepted argument hargument)
  have hflags : ((arguments.map Argument.token).filterMap Token.flag?).map (·.id) =
      (arguments.filterMap Argument.setting?).map (·.flag.id) := by
    rw [List.filterMap_map, List.map_filterMap, List.map_filterMap]
    refine List.filterMap_congr fun argument _ => ?_
    cases argument <;> rfl
  have hread := hengine.read_tokens (signature_mem_signatures verb) hof (hflags ▸ honce)
    verb.isStandard htakes
  rw [List.map_map] at hread
  exact hread

/-- A command line carries what is written on it, wherever its flags stand. The arguments behind a
command may be its operands in order, any number of `-v` if the command takes it, and one flag for
each value of any of the flags it accepts, mixed in any way. Then, with every engine that keeps its
promises, the parameters and the command that are read have just these values: a flag that is not
given has its documented value, `-v` counts up to 255, and an output root that the command accepts
without using it makes no difference. -/
theorem read_of_arguments {engine : Engine} (hengine : Documented engine signatures)
    (hmakes : Makes options verbosity verb positionals params command)
    (hgiven : (arguments.filterMap Argument.setting?).Perm options.given)
    (hverbosity : arguments.countP Argument.isVerbose = verbosity)
    (hpositionals : arguments.filterMap Argument.positional? = positionals)
    (hspelled : ∀ argument ∈ arguments, argument.Spelled)
    (haccepted : ∀ argument ∈ arguments, argument.IsAccepted verb) :
    readParams engine (verb.name :: arguments.map Argument.text) = .ok (some params) ∧
      read engine (verb.name :: arguments.map Argument.text) = .ok (some command) := by
  subst hverbosity hpositionals
  have honce : ((arguments.filterMap Argument.setting?).map (·.flag.id)).Nodup :=
    (hgiven.map _).nodup_iff.2 options.nodup_given
  obtain ⟨last, htakes, hcounts, hparams⟩ := takes_of_makes hmakes (forall₂_spelled hspelled)
  have hread : readParams engine (verb.name :: arguments.map Argument.text) = .ok (some params) := by
    rw [readParams_of_found (engine_arguments hengine hspelled haccepted honce htakes),
      hparams _ (Options.adds_addFlags hgiven hcounts)]
  refine ⟨hread, ?_⟩
  rw [read, hread, ← ofParams_of_makes hmakes]
  rfl

end

theorem Verb.wellFormed (verb : Verb) : verb.signature.WellFormed := by
  rcases verb with ⟨_ | _ | _⟩ | _ | _ | _ | _ | _ <;> constructor <;> decide

theorem wellFormed_signatures : Reader.WellFormed signatures where
  names := by decide
  signature signature hsignature := by
    obtain ⟨verb, -, rfl⟩ := List.mem_map.1 hsignature
    exact verb.wellFormed

/-- Flags stand in front of the operands, between them and behind them. One value holds a `=`, one
is as large as it can be and has a zero in front, and one is accepted without being used. -/
theorem read_of_arguments_resolve :
    Documented Reader.commandLine signatures ∧
      readParams Reader.commandLine ["resolve", "--marker=a=b", "array", "--out-dir=build", "maps/ip",
          "0X0006", "--max-table-len=018446744073709551615", "11", "--color=never"] =
        .ok (some (.resolve .array ⟨"maps/ip"⟩ [6, 0x11]
          { width := .u16, indent := .tab, marker := some "a=b",
            tableLimit? := some 18446744073709551615 } .never)) ∧
      read Reader.commandLine ["resolve", "--marker=a=b", "array", "--out-dir=build", "maps/ip",
          "0X0006", "--max-table-len=018446744073709551615", "11", "--color=never"] =
        .ok (some (.resolve .array ⟨"maps/ip"⟩ [6, 0x11]
          { marker := some "a=b", tableLimit := 18446744073709551615 } .never)) := by
  let options : Options :=
    { marker := some "a=b", outRoot := some ⟨"build"⟩, tableLimit := some 18446744073709551615
      coloring := some .never }
  let arguments : List Argument :=
    [.setting (.marker "a=b") "a=b", .positional (.strategy .array) "array",
      .setting (.outRoot ⟨"build"⟩) "build", .positional (.mapping ⟨"maps/ip"⟩) "maps/ip",
      .positional (.identifier 6) "0X0006",
      .setting (.tableLimit 18446744073709551615) "018446744073709551615",
      .positional (.identifier 0x11) "11", .setting (.color .never) "never"]
  have hengine : Documented Reader.commandLine signatures :=
    Reader.documented_commandLine wellFormed_signatures
  have hmakes : Makes options 0 .resolve
      (.strategy .array :: .mapping ⟨"maps/ip"⟩ :: [6, 0x11].map .identifier)
      (.resolve .array ⟨"maps/ip"⟩ [6, 0x11] options.configParams .never)
      (.resolve .array ⟨"maps/ip"⟩ [6, 0x11] options.config .never) :=
    .resolve .array ⟨"maps/ip"⟩ (by decide)
  have hdecimal : Text.IsDecimal "018446744073709551615".toList 18446744073709551615 :=
    ⟨by decide, List.all_eq_true.1 (by decide), by decide⟩
  have hspelled : ∀ argument ∈ arguments, argument.Spelled := by
    simp only [arguments, List.forall_mem_cons]
    exact ⟨rfl, rfl, ⟨rfl, by decide⟩, ⟨rfl, by decide, by decide⟩, rfl,
      ⟨hdecimal, by decide, by decide⟩, rfl, rfl, List.forall_mem_nil _⟩
  have haccepted : ∀ argument ∈ arguments, argument.IsAccepted .resolve := by
    simp [arguments, Argument.IsAccepted, Setting.flag, Verb.flags, Flag.reading, Flag.output]
  exact ⟨hengine, read_of_arguments hengine hmakes (.refl _) rfl rfl hspelled haccepted⟩

end Switchboard.Command
