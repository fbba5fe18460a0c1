import Switchboard.Artifact.Lookup

/-!
Artifacts: the class generated for one mapping and strategy, in two units. The interface unit
declares the class with one member per slot; the implementation unit defines its `lookup` function
and the method that writes the state of every slot. Both list the slots in the order of the plan.
-/

namespace Switchboard

structure Artifact where
  className : String
  mapping : String
  interface : List Code
  implementation : List Code
  plan : Plan

namespace Artifact

open Code (line block)

def includeLine (header : String) : Code :=
  line ("#include \"" ++ header ++ "\"")

def memberLine (slot : Slot) : Code :=
  line (slot.typeName ++ " " ++ slot.name.text ++ ";")

def stateLine (slot : Slot) : Code :=
  line ("os << " ++ slot.name.text ++ " << \"\\n\";")

def interfaceUnit (target : Target) (className : String) (plan : Plan) : List Code :=
  [line "#pragma once", line ""] ++ target.includes.map includeLine ++
    [line "",
      line ("class " ++ className ++ " : public " ++ target.baseClass ++ " \x7b"),
      line "public:",
      block [line (target.handlerType ++ "* lookup(" ++ target.identifierType ++
        " identifier) override;")],
      line "private:",
      block (line ("void " ++ target.stateMethod ++ "(std::ostream &os) const override;") ::
        (plan.slots.toList.map memberLine ++ extraMembers target plan)),
      line "\x7d;"]

def implementationUnit (target : Target) (className : String) (plan : Plan) : List Code :=
  [includeLine (target.includePrefix ++ "/" ++ className ++ ".h"),
    line "",
    line (target.handlerType ++ "* " ++ className ++ "::lookup(" ++ target.identifierType ++
      " identifier) \x7b"),
    block (lookupBody target plan),
    line "\x7d",
    line "",
    line ("void " ++ className ++ "::" ++ target.stateMethod ++ "(std::ostream &os) const \x7b"),
    block (plan.slots.toList.map stateLine),
    line "\x7d"]

def ofPlan (target : Target) (mapping : String) (plan : Plan) : Artifact :=
  let className := plan.strategy.className mapping
  { className, mapping, plan
    interface := interfaceUnit target className plan
    implementation := implementationUnit target className plan }

/-- The artifact of a mapping under a strategy. It fails exactly when the layout does. -/
def emit (mapping : Mapping) (strategy : Strategy) (config : Config) : Except Fault Artifact :=
  (Plan.ofMapping strategy mapping config).map (ofPlan config.target mapping.name)

def strategy (artifact : Artifact) : Strategy :=
  artifact.plan.strategy

def interfaceFile (className : String) : String :=
  className ++ ".h"

def implementationFile (className : String) : String :=
  className ++ ".cpp"

def interfaceText (artifact : Artifact) (indent : Indent) : String :=
  Code.render indent.unit artifact.interface

def implementationText (artifact : Artifact) (indent : Indent) : String :=
  Code.render indent.unit artifact.implementation

end Artifact

end Switchboard
