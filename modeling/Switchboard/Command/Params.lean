import Switchboard.Command.Grammar

/-!
Parameters: what a command takes from the values that an engine has found. An argument that a command
accepts and does not use is passed over. An engine sees to it that required arguments are given and
that names are names; parameters cannot be taken from values without that.
-/

namespace Switchboard.Command

/-- When output is coloured; by itself, when it goes to a terminal. -/
inductive Coloring
  | auto
  | always
  | never
deriving DecidableEq, Repr

def Coloring.isOn (coloring : Coloring) (terminal : Bool) : Bool :=
  match coloring with
  | auto => terminal
  | always => true
  | never => false

def Coloring.ofMatches (found : Matches) : Coloring :=
  match found.one? .color with
  | some "always" => always
  | some "never" => never
  | _ => auto

/-- The flags that configure mappings and generation. -/
structure ConfigParams where
  width : Width
  indent : Indent
  marker : Option String
  tableLimit? : Option Nat
deriving DecidableEq, Repr

namespace ConfigParams

def ofMatches (found : Matches) : ConfigParams where
  width := ((found.one? .width).map fun name => (Width.ofName? name).getD default).getD default
  indent := (found.one? .indent).getD default
  marker := found.one? .marker
  tableLimit? := found.one? .tableLimit

def config (params : ConfigParams) : Config :=
  let config : Config := { width := params.width, indent := params.indent, marker := params.marker }
  match params.tableLimit? with
  | some limit => { config with tableLimit := limit }
  | none => config

end ConfigParams

def outRootOf (found : Matches) : Path :=
  (found.one? .outRoot).getD ⟨"."⟩

inductive Params
  | one (strategy : Strategy) (mapping outRoot : Path) (config : ConfigParams) (verbosity : Nat)
    (coloring : Coloring)
  | all (directory : Option Path) (outRoot : Path) (config : ConfigParams) (verbosity : Nat)
    (coloring : Coloring)
  | clean (outRoot : Path) (verbosity : Nat) (coloring : Coloring)
  | check (mapping : Path) (config : ConfigParams) (verbosity : Nat) (coloring : Coloring)
  | dump (strategy : Strategy) (mapping : Path) (config : ConfigParams) (coloring : Coloring)
  | resolve (strategy : Strategy) (mapping : Path) (identifiers : List Identifier)
    (config : ConfigParams) (coloring : Coloring)
deriving DecidableEq, Repr

/-- The parameters of a command, if its required arguments are there. -/
def Params.ofMatches? (verb : Verb) (found : Matches) : Option Params := do
  let config := ConfigParams.ofMatches found
  let outRoot := outRootOf found
  let verbosity := found.counts .verbose
  let coloring := Coloring.ofMatches found
  match verb with
  | .one strategy =>
    return one strategy (← found.one? .mapping) outRoot config verbosity coloring
  | .all => return all (found.one? .directory) outRoot config verbosity coloring
  | .clean => return clean outRoot verbosity coloring
  | .check => return check (← found.one? .mapping) config verbosity coloring
  | .dump =>
    let strategy ← Strategy.ofName? (← found.one? .strategy)
    return dump strategy (← found.one? .mapping) config coloring
  | .resolve =>
    let strategy ← Strategy.ofName? (← found.one? .strategy)
    return resolve strategy (← found.one? .mapping) (found.values .identifiers) config coloring

end Switchboard.Command
