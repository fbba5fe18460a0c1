import Switchboard.Disk.Script
import Switchboard.Output.Layout

/-!
Writing units. A unit is written to a temporary file in the directory it belongs to and then renamed
into place, so nobody ever reads half of a unit; the temporary file is removed when something fails.
Directories are made as they are needed, the innermost first as long as that works. Of an artifact,
the interface unit is written first.
-/

namespace Switchboard.Output

open Disk

/-- What a refused request to make a directory comes to: it is no loss if the directory is there. -/
def acceptDirectory (directory : Path) : Answer (.makeDirectory directory) →
    Script (Except Cause Unit)
  | .ok () => .done (.ok ())
  | .error cause => do
    match ← Script.request (.inspect directory) with
    | .ok .directory => return .ok ()
    | _ => return .error cause

/-- Makes a directory, given with the directories above it, and the ones of these that are
missing. -/
def ensureDirectories : List Path → Script (Except Cause Unit)
  | [] => .done (.ok ())
  | directory :: above => do
    match ← Script.request (.makeDirectory directory) with
    | .error .missing =>
      match ← ensureDirectories above with
      | .error cause => return .error cause
      | .ok () => acceptDirectory directory (← Script.request (.makeDirectory directory))
    | answer => acceptDirectory directory answer

def ensureDirectory (directory : Path) : Script (Except Cause Unit) :=
  ensureDirectories directory.ascent

def abandon (temporary : Path) (fault : Fault) : Job Unit := do
  let _ ← ExceptT.lift (Script.request (.remove temporary))
  Job.fail fault

/-- Puts a text at a path, in place of any file or link that is there. -/
def writeUnit (path : Path) (text : String) : Job Unit := do
  let directory := path.directory
  Job.attempt .makeDirectory directory (ensureDirectory directory)
  let temporary ← Job.attempt .createTemporary directory
    (Script.request (.createTemporary directory))
  match ← ExceptT.lift (Script.request (.write temporary text.toUTF8)) with
  | .error cause => abandon temporary (.disk .write temporary cause)
  | .ok () =>
    match ← ExceptT.lift (Script.request (.rename temporary path)) with
    | .error cause => abandon temporary (.disk .write path cause)
    | .ok () => return ()

structure Written where
  className : String
  strategy : Strategy
  entries : Nat
  geometry? : Option Geometry
  interface : Path
  implementation : Path
deriving DecidableEq, Repr

def Written.of (layout : Layout) (artifact : Artifact) : Written where
  className := artifact.className
  strategy := artifact.strategy
  entries := artifact.plan.slots.size
  geometry? := artifact.plan.geometry?
  interface := layout.interfacePath artifact.className
  implementation := layout.implementationPath artifact.className

def writeArtifact (layout : Layout) (indent : Indent) (artifact : Artifact) : Job Written := do
  let written := Written.of layout artifact
  writeUnit written.interface (artifact.interfaceText indent)
  writeUnit written.implementation (artifact.implementationText indent)
  return written

/-- Writes artifacts in order, up to the first that fails. -/
def writeArtifacts (layout : Layout) (indent : Indent) (artifacts : List Artifact) :
    Job (List Written) :=
  artifacts.mapM (writeArtifact layout indent)

end Switchboard.Output
