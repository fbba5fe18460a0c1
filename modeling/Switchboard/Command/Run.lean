import Switchboard.Command
import Switchboard.Command.Report
import Switchboard.Generator

/-!
Running commands. A command is a script whose result is its outcome; a fault becomes an error line
and the exit status 1. Checking, dumping and resolving ask only to inspect and read.
-/

namespace Switchboard.Command

open Disk

/-- The outcome of a job, given what follows from its result. -/
def conclude {α : Type} (palette : Palette) (job : Job α) (report : α → Outcome) :
    Script Outcome := do
  match ← job.run with
  | .ok result => return report result
  | .error fault => return Outcome.failure palette fault

def writtenOutcome (palette : Palette) (verbosity : Nat) (written : List Output.Written) :
    Outcome :=
  { diagnostics := notes palette verbosity (written.flatMap (writtenNotes palette)) }

/-- The layout of units that are only shown: below no root at all. -/
def shownRoot : Path := ⟨""⟩

/-- The script of a command, given whether output goes to a terminal. -/
def run (terminal : Bool) : Command → Script Outcome
  | one strategy mapping outRoot config reporting =>
    let palette := Palette.of (reporting.coloring.isOn terminal)
    conclude palette (Generator.generate ⟨config, outRoot⟩ mapping [strategy])
      (writtenOutcome palette reporting.verbosity)
  | all directory outRoot config reporting =>
    let palette := Palette.of (reporting.coloring.isOn terminal)
    let generator : Generator := ⟨config, outRoot⟩
    conclude palette
      (generator.generateDirectory (directory.getD generator.layout.mappingDirectory))
      (writtenOutcome palette reporting.verbosity)
  | clean outRoot reporting =>
    let palette := Palette.of (reporting.coloring.isOn terminal)
    conclude palette (Generator.clean ⟨{}, outRoot⟩) fun removed =>
      { diagnostics := notes palette reporting.verbosity (cleanNotes palette removed) }
  | check mapping config reporting =>
    let palette := Palette.of (reporting.coloring.isOn terminal)
    conclude palette (Generator.load ⟨config, shownRoot⟩ mapping) fun mapping =>
      { diagnostics := notes palette reporting.verbosity [checkedNote mapping] }
  | dump strategy mapping config coloring =>
    let palette := Palette.of (coloring.isOn terminal)
    let generator : Generator := ⟨config, shownRoot⟩
    conclude palette (generator.render mapping strategy) fun artifact =>
      { output := artifactDump palette generator.layout config.indent artifact }
  | resolve strategy mapping identifiers config coloring =>
    let palette := Palette.of (coloring.isOn terminal)
    let plan : Job Plan := do
      let mapping ← Generator.load ⟨config, shownRoot⟩ mapping
      Job.ofExcept (Plan.ofMapping strategy mapping config)
    conclude palette plan fun plan =>
      { output := String.join (identifiers.map fun identifier =>
          (Resolution.of plan identifier).text) }

end Switchboard.Command
