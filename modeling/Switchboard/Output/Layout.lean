import Switchboard.Artifact
import Switchboard.Path

/-!
Where generated units go: below an output root there is one tree for interface units and one for
implementation units, and both have the directory that units are included from.
-/

namespace Switchboard

structure Layout where
  root : Path
  includeDirectory : Path
  sourceDirectory : Path
deriving DecidableEq, Repr

namespace Layout

def of (root : Path) (target : Target) : Layout where
  root
  includeDirectory := (root.join "include").join target.includePrefix
  sourceDirectory := (root.join "src").join target.includePrefix

/-- Where mappings are looked for when no directory is given. -/
def mappingDirectory (layout : Layout) : Path :=
  (layout.root.join "input").join "analyzers"

def interfacePath (layout : Layout) (className : String) : Path :=
  layout.includeDirectory.join (Artifact.interfaceFile className)

def implementationPath (layout : Layout) (className : String) : Path :=
  layout.sourceDirectory.join (Artifact.implementationFile className)

end Layout

end Switchboard
