import Switchboard.Output.Clean
import Switchboard.Output.Write

/-!
Generation runs: check paths, read mappings, emit artifacts, write them. Nothing is written until
every artifact of the run has been emitted, so a fault in any mapping leaves the file system as it
was.
-/

namespace Switchboard

open Disk

/-! ### Reading mappings -/

/-- What a path leads to; a path that leads nowhere is a fault of the path. -/
def inspectPath (path : Path) : Job Kind := do
  match ← ExceptT.lift (Script.request (.inspect path)) with
  | .ok kind => return kind
  | .error .missing => Job.fail (.path path .missing)
  | .error cause => Job.fail (.disk .inspect path cause)

def requireFile (path : Path) : Job Unit := do
  unless (← inspectPath path) = .file do
    Job.fail (.path path .notFile)

def requireDirectory (path : Path) : Job Unit := do
  unless (← inspectPath path) = .directory do
    Job.fail (.path path .notDirectory)

/-- The mapping in a file, named after the file. -/
def Mapping.load (config : Config) (path : Path) : Job Mapping := do
  let bytes ← Job.attempt .read path (Script.request (.read path))
  match String.fromUTF8? bytes with
  | none => Job.fail (.disk .read path .notText)
  | some source => Job.ofExcept (ofSource (nameOfPath path) source config)

def isHidden (name : String) : Bool :=
  name.toList.head? == some '.'

/-- The mapping files in a directory, in ascending order. Hidden ones are left out; everything else
has to be a regular file. -/
def mappingFiles (directory : Path) : Job (List Path) := do
  requireDirectory directory
  let entries ← Job.attempt .list directory (Script.request (.list directory))
  let names := (entries.map (·.1)).filter (!isHidden ·)
  names.forM fun name => requireFile (directory.join name)
  return (names.mergeSort fun a b => a ≤ b).map directory.join

/-! ### Runs -/

structure Generator where
  config : Config
  root : Path

namespace Generator

def layout (generator : Generator) : Layout :=
  Layout.of generator.root generator.config.target

def load (generator : Generator) (path : Path) : Job Mapping := do
  requireFile path
  Mapping.load generator.config path

def emitAll (config : Config) (mapping : Mapping) (strategies : List Strategy) :
    Except Fault (List Artifact) :=
  strategies.mapM fun strategy => Artifact.emit mapping strategy config

/-- The artifacts of the mapping in a regular file. Nothing is written. -/
def emission (generator : Generator) (path : Path) (strategies : List Strategy) :
    Job (List Artifact) := do
  let mapping ← generator.load path
  Job.ofExcept (emitAll generator.config mapping strategies)

/-- The artifact of the mapping in a regular file for one strategy. Nothing is written. -/
def render (generator : Generator) (path : Path) (strategy : Strategy) : Job Artifact := do
  let mapping ← generator.load path
  Job.ofExcept (Artifact.emit mapping strategy generator.config)

abbrev Owners := List (String × Path)

/-- The artifacts of a mapping under some strategies, none of which may have the class of another
file. -/
def emitOwned (config : Config) (owners : Owners) (path : Path) (mapping : Mapping) :
    List Strategy → Except Fault (List Artifact)
  | [] => .ok []
  | strategy :: rest => do
    let artifact ← Artifact.emit mapping strategy config
    match owners.lookup artifact.className with
    | some owner => .error (.classCollision artifact.className owner path)
    | none => return artifact :: (← emitOwned config owners path mapping rest)

/-- The artifacts of the mappings in some files under every strategy, in the order of the files. -/
def emitFiles (config : Config) (owners : Owners) : List Path → Job (List Artifact)
  | [] => return []
  | path :: rest => do
    let mapping ← Mapping.load config path
    let artifacts ← Job.ofExcept (emitOwned config owners path mapping Strategy.all)
    let others ← emitFiles config (owners ++ artifacts.map (·.className, path)) rest
    return artifacts ++ others

/-- The artifacts of all mappings in a directory. Nothing is written. -/
def directoryEmission (generator : Generator) (directory : Path) : Job (List Artifact) := do
  let paths ← mappingFiles directory
  emitFiles generator.config [] paths

def write (generator : Generator) (artifacts : List Artifact) : Job (List Output.Written) :=
  Output.writeArtifacts generator.layout generator.config.indent artifacts

def generate (generator : Generator) (path : Path) (strategies : List Strategy) :
    Job (List Output.Written) := do
  generator.write (← generator.emission path strategies)

def generateDirectory (generator : Generator) (directory : Path) : Job (List Output.Written) := do
  generator.write (← generator.directoryEmission directory)

def clean (generator : Generator) : Job (List Path) :=
  Output.clean generator.layout

end Generator

end Switchboard
