import Switchboard.Disk.Script
import Switchboard.Output.Layout

/-!
Removing generated units. Only regular files whose names a generated unit could have are removed;
directories, links and all other files stay, and so do the output directories themselves.
-/

namespace Switchboard.Output

open Disk

def afterStem? (stem text : String) : Option String :=
  if stem.toList.isPrefixOf text.toList then
    some (String.ofList (text.toList.drop stem.toList.length))
  else none

/-- Whether a file name without its extension could be a generated class name. -/
def isClassName (stem : String) : Bool :=
  match afterStem? Strategy.classStem stem with
  | none => false
  | some rest =>
    Strategy.all.any fun strategy =>
      match afterStem? strategy.label rest with
      | none => false
      | some tail => Text.isWordTail tail

/-- Whether a path has a name that a generated unit with the given extension could have. -/
def isGenerated (path : Path) (extension : String) : Bool :=
  path.extension? == some extension &&
    match path.stem? with
    | none => false
    | some stem => isClassName stem

/-- The generated units with an extension in a directory, in ascending order. A directory that does
not exist has none. -/
def generatedFiles (directory : Path) (extension : String) : Job (List Path) := do
  match ← ExceptT.lift (Script.request (.list directory)) with
  | .error .missing => return []
  | .error cause => Job.fail (.disk .list directory cause)
  | .ok entries =>
    let names := entries.filterMap fun (name, kind) =>
      if kind = .file ∧ isGenerated (directory.join name) extension then some name else none
    return (names.mergeSort fun a b => a ≤ b).map directory.join

def removeFiles (paths : List Path) : Job Unit :=
  paths.forM fun path => Job.attempt .remove path (Script.request (.remove path))

/-- Removes every generated unit of a layout and answers with their paths, the interface units
first. -/
def clean (layout : Layout) : Job (List Path) := do
  let interfaces ← generatedFiles layout.includeDirectory "h"
  removeFiles interfaces
  let implementations ← generatedFiles layout.sourceDirectory "cpp"
  removeFiles implementations
  return interfaces ++ implementations

end Switchboard.Output
