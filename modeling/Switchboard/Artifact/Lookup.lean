import Switchboard.Code
import Switchboard.Plan

/-!
The part of a generated class that differs between strategies: the body of its `lookup` function, and
the table that goes with the body of a table dispatcher. The parameter of `lookup` is called
`identifier`.
-/

namespace Switchboard.Artifact

open Code (line block)

def returnSlot (slot : Slot) : Code :=
  line ("return &" ++ slot.name.text ++ ";")

def returnNull (target : Target) : Code :=
  line ("return " ++ target.null ++ ";")

def switchCase (slot : Slot) : List Code :=
  [line ("case " ++ slot.identifier.literal ++ ":"), block [returnSlot slot]]

/-- One case per slot, and a default that answers with nothing. -/
def switchBody (target : Target) (plan : SwitchPlan) : List Code :=
  [line "switch (identifier) \x7b",
    block (plan.cases.toList.flatMap switchCase ++ [line "default:", block [returnNull target]]),
    line "\x7d"]

def chainTest (slot : Slot) : String :=
  "if (identifier == " ++ slot.identifier.literal ++ ") \x7b"

/-- The rest of a chain, after at least one comparison. -/
def chainRest : List Slot → List Code
  | [] => [line "\x7d"]
  | slot :: rest => line ("\x7d else " ++ chainTest slot) :: block [returnSlot slot] :: chainRest rest

/-- Comparisons in order, of which the first to succeed answers. Without slots there is no chain. -/
def chainBody (target : Target) (plan : ChainPlan) : List Code :=
  match plan.tests.toList with
  | [] => [returnNull target]
  | slot :: rest =>
    line (chainTest slot) :: block [returnSlot slot] :: (chainRest rest ++ [returnNull target])

def tableEntry (target : Target) : Option Slot → Code
  | some slot => line ("&" ++ slot.name.text ++ ",")
  | none => line (target.null ++ ",")

def tableMember (target : Target) (plan : TablePlan) : List Code :=
  [line (target.handlerType ++ "* table[" ++ toString plan.length ++ "] = \x7b"),
    block (plan.positions.map (tableEntry target)),
    line "\x7d;"]

/-- An access to the table after a test of its bounds. -/
def tableBody (target : Target) (plan : TablePlan) : List Code :=
  [line ("int64_t index = static_cast<int64_t>(identifier) - " ++ plan.lo.literal ++ ";"),
    line ("if (index >= 0 && index < " ++ toString plan.length ++ " && table[index] != " ++
      target.null ++ ") \x7b"),
    block [line "return table[index];"],
    line "\x7d",
    returnNull target]

def lookupBody (target : Target) : Plan → List Code
  | .switch plan => switchBody target plan
  | .chain plan => chainBody target plan
  | .array plan => tableBody target plan

/-- The members that follow the slots. -/
def extraMembers (target : Target) : Plan → List Code
  | .switch _ | .chain _ => []
  | .array plan => tableMember target plan

end Switchboard.Artifact
