import Switchboard.Command.Params

/-!
Commands: what the program can be asked to do, with everything it needs to know.
-/

namespace Switchboard

structure Command.Reporting where
  verbosity : Nat := 0
  coloring : Command.Coloring := .auto
deriving DecidableEq, Repr

inductive Command
  | one (strategy : Strategy) (mapping outRoot : Path) (config : Config)
    (reporting : Command.Reporting)
  | all (directory : Option Path) (outRoot : Path) (config : Config)
    (reporting : Command.Reporting)
  | clean (outRoot : Path) (reporting : Command.Reporting)
  | check (mapping : Path) (config : Config) (reporting : Command.Reporting)
  | dump (strategy : Strategy) (mapping : Path) (config : Config) (coloring : Command.Coloring)
  | resolve (strategy : Strategy) (mapping : Path) (identifiers : List Identifier)
    (config : Config) (coloring : Command.Coloring)
deriving DecidableEq, Repr

namespace Command

def ofParams : Params → Command
  | .one strategy mapping outRoot config verbosity coloring =>
    one strategy mapping outRoot config.config ⟨verbosity, coloring⟩
  | .all directory outRoot config verbosity coloring =>
    all directory outRoot config.config ⟨verbosity, coloring⟩
  | .clean outRoot verbosity coloring => clean outRoot ⟨verbosity, coloring⟩
  | .check mapping config verbosity coloring => check mapping config.config ⟨verbosity, coloring⟩
  | .dump strategy mapping config coloring => dump strategy mapping config.config coloring
  | .resolve strategy mapping identifiers config coloring =>
    resolve strategy mapping identifiers config.config coloring

/-- The command that values make, if they are those of its arguments. -/
def ofMatches? (verb : Verb) (found : Matches) : Option Command :=
  (Params.ofMatches? verb found).map ofParams

/-- The parameters on a command line, read with the help of an engine; none, if what the engine has
found are not the values of a command. -/
def readParams (engine : Engine) (arguments : List String) : Except UsageFault (Option Params) := do
  let (name, found) ← engine signatures arguments
  return do Params.ofMatches? (← Verb.ofName? name) found

/-- The command on a command line. -/
def read (engine : Engine) (arguments : List String) : Except UsageFault (Option Command) := do
  return (← readParams engine arguments).map ofParams

end Command

end Switchboard
