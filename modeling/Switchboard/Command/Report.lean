import Switchboard.Output.Write

/-!
What a command reports. Requested output goes to one stream and everything else to another, as lines
that begin with `error:` or `note:`. Notes are given only at their verbosity or above it.
-/

namespace Switchboard.Command

structure Palette where
  blue : String := ""
  green : String := ""
  red : String := ""
  dim : String := ""
  reset : String := ""
deriving DecidableEq, Repr

namespace Palette

def off : Palette := {}

/-- Colours that can be read on light and on dark ground. -/
def on : Palette where
  blue := "\x1b[34m"
  green := "\x1b[32m"
  red := "\x1b[31m"
  dim := "\x1b[2m"
  reset := "\x1b[0m"

def of (colored : Bool) : Palette :=
  if colored then on else off

def paint (palette : Palette) (color text : String) : String :=
  color ++ text ++ palette.reset

end Palette

/-- What a command leaves behind besides files. -/
structure Outcome where
  output : String := ""
  diagnostics : String := ""
  exit : Nat := 0
deriving DecidableEq, Repr

def noteLine (palette : Palette) (text : String) : String :=
  palette.paint palette.green "note" ++ ": " ++ text ++ "\n"

/-- The notes of which each is given at its verbosity or above. -/
def notes (palette : Palette) (verbosity : Nat) (texts : List (Nat × String)) : String :=
  String.join ((texts.filter (·.1 ≤ verbosity)).map fun (_, text) => noteLine palette text)

def Outcome.failure (palette : Palette) (fault : Fault) : Outcome where
  diagnostics := palette.paint palette.red "error" ++ ": " ++ fault.message ++ "\n"
  exit := 1

/-- The notes on an artifact that was written, with their verbosities. -/
def writtenNotes (palette : Palette) (written : Output.Written) : List (Nat × String) :=
  let shape := match written.geometry? with
    | some geometry => ", " ++ geometry.text
    | none => ""
  [(1, "wrote " ++ palette.paint palette.blue written.className ++ " " ++
      palette.paint palette.dim
        ("(" ++ written.interface.text ++ ", " ++ written.implementation.text ++ ")")),
    (2, written.className ++ ": " ++ toString written.entries ++ " entries" ++ shape)]

def removedNote (palette : Palette) (path : Path) : Nat × String :=
  (1, "removed " ++ palette.paint palette.dim path.text)

def cleanNotes (palette : Palette) (removed : List Path) : List (Nat × String) :=
  if removed.isEmpty then [(1, "nothing to clean")] else removed.map (removedNote palette)

def checkedNote (mapping : Mapping) : Nat × String :=
  let identifiers := mapping.entries.map (·.identifier.toNat)
  match identifiers.min?, identifiers.max? with
  | some lo, some hi =>
    (1, mapping.name ++ ": " ++ toString mapping.size ++ " entries, identifiers " ++
      Text.hexLiteral lo ++ "..=" ++ Text.hexLiteral hi)
  | _, _ => (1, mapping.name ++ ": no entries")

structure Resolution where
  identifier : Identifier
  handler : Option String
  slot : Option String
deriving DecidableEq, Repr

def Resolution.of (plan : Plan) (identifier : Identifier) : Resolution :=
  let slot := plan.lookup identifier
  ⟨identifier, slot.map (·.typeName), slot.map (·.name.text)⟩

/-- A text of words, which needs no escapes, as a JSON string; nothing is `null`. -/
def jsonWord : Option String → String
  | some text => "\"" ++ text ++ "\""
  | none => "null"

/-- A resolution as a JSON record on a line of its own. -/
def Resolution.text (resolution : Resolution) : String :=
  "\x7b\"identifier\":" ++ jsonWord (some resolution.identifier.literal) ++
    ",\"handler\":" ++ jsonWord resolution.handler ++
    ",\"slot\":" ++ jsonWord resolution.slot ++ "\x7d\n"

/-- A unit under a line that tells where it would be written. -/
def unitDump (palette : Palette) (path : Path) (text : String) : String :=
  palette.paint palette.dim ("// " ++ path.text) ++ "\n" ++ text

/-- Both units of an artifact as they would be written below a layout. -/
def artifactDump (palette : Palette) (layout : Layout) (indent : Indent) (artifact : Artifact) :
    String :=
  unitDump palette (layout.interfacePath artifact.className) (artifact.interfaceText indent) ++
    "\n" ++
    unitDump palette (layout.implementationPath artifact.className)
      (artifact.implementationText indent)

end Switchboard.Command
