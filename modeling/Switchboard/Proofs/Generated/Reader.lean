import Switchboard.Artifact
import Switchboard.Proofs.Generated.Semantics

/-!
Reading a generated class back. The text of every line is matched against the statement shapes of
the generated language, and what stands between the fixed parts is read as a number, a name or a list
of tests. A line that matches no shape, a body without its closing line and a number that is not
written as one leave a function unread; nothing is guessed.

A number behind `0x` is hexadecimal, and any other is decimal and written without leading zeros. The
null pointer is written in the vocabulary of the class (`Target.null`).
-/

namespace Switchboard.Generated

/-! ### Parts of a line -/

/-- What stands between a fixed opening and a fixed closing. -/
def between? (opening closing : String) (text : List Char) : Option (List Char) :=
  (text.dropPrefix? opening.toList).bind (·.dropSuffix? closing.toList)

def hexLiteral? (text : List Char) : Option Nat :=
  (text.dropPrefix? "0x".toList).bind Text.hexValue?

def decimalLiteral? (text : List Char) : Option Nat :=
  let n := Nat.ofDigitChars 10 text 0
  if text = Nat.toDigits 10 n then some n else none

def expression? (null : String) (text : List Char) : Option Expression :=
  if text = null.toList then some .null
  else if text = "table[index]".toList then some .cell
  else
    match text with
    | '&' :: name =>
      if Text.isWord (String.ofList name) then some (.address (String.ofList name)) else none
    | _ => none

def test? (null : String) (text : List Char) : Option Test :=
  if text = "index >= 0".toList then some .indexNotNegative
  else if text = "table[index] != ".toList ++ null.toList then some .cellNotNull
  else
    match text.dropPrefix? "index < ".toList with
    | some digits => (decimalLiteral? digits).map .indexBelow
    | none =>
      (text.dropPrefix? "identifier == ".toList).bind fun literal =>
        (hexLiteral? literal).map .identifierIs

/-- The pieces between the operators `&&`. -/
def conjuncts : List Char → List (List Char)
  | [] => [[]]
  | ' ' :: '&' :: '&' :: ' ' :: rest => [] :: conjuncts rest
  | c :: rest => (conjuncts rest).modifyHead (c :: ·)

def tests? (null : String) (text : List Char) : Option (List Test) :=
  (conjuncts text).mapM (test? null)

def label? (text : List Char) : Option Label :=
  if text = "default:".toList then some .default
  else (between? "case " ":" text).bind fun literal => (hexLiteral? literal).map .number

/-! ### Statements -/

def returned? (null : String) : Code → Option Expression
  | .line text => (between? "return " ";" text.toList).bind (expression? null)
  | .block _ => none

def simple? (null : String) (text : String) : Option Statement :=
  match returned? null (.line text) with
  | some value => some (.answer value)
  | none =>
    (between? "int64_t index = static_cast<int64_t>(identifier) - " ";" text.toList).bind
      fun literal => (hexLiteral? literal).map .rebase

def sections? (null : String) : List Code → Option (List Section)
  | [] => some []
  | .line text :: .block items :: rest => do
    let label ← label? text.toList
    let values ← items.mapM (returned? null)
    let sections ← sections? null rest
    return (label, values) :: sections
  | _ => none

mutual

def statements? (null : String) : List Code → Option (List Statement)
  | [] => some []
  | .line "switch (identifier) \x7b" :: .block items :: .line "\x7d" :: rest => do
    let sections ← sections? null items
    let statements ← statements? null rest
    return .switch sections :: statements
  | .line text :: .block items :: rest => do
    let tests ← (between? "if (" ") \x7b" text.toList).bind (tests? null)
    let values ← items.mapM (returned? null)
    let (arms, statements) ← arms? null rest
    return .chain ((tests, values) :: arms) :: statements
  | .line text :: rest => do
    let statement ← simple? null text
    let statements ← statements? null rest
    return statement :: statements
  | .block _ :: _ => none

/-- The arms that continue a chain, and the statements behind its end. -/
def arms? (null : String) : List Code → Option (List Arm × List Statement)
  | .line text :: .block items :: rest => do
    let tests ← (between? "\x7d else if (" ") \x7b" text.toList).bind (tests? null)
    let values ← items.mapM (returned? null)
    let (arms, statements) ← arms? null rest
    return ((tests, values) :: arms, statements)
  | .line "\x7d" :: rest => do
    let statements ← statements? null rest
    return ([], statements)
  | _ => none

end

/-! ### Units -/

def headBlock? : List Code → Option (List Code)
  | .block items :: _ => some items
  | _ => none

/-- The block under the first line with the given text. -/
def blockUnder? (heading : String) : List Code → Option (List Code)
  | [] => none
  | .block _ :: rest => blockUnder? heading rest
  | .line text :: rest => if text = heading then headBlock? rest else blockUnder? heading rest

def initialiser? (null : String) : Code → Option Pointer
  | .line text =>
    match (text.toList.dropSuffix? ",".toList).bind (expression? null) with
    | some .null => some .null
    | some (.address name) => some (.member name)
    | _ => none
  | .block _ => none

/-- The table that some members begin with. -/
def tableAt? (target : Target) : List Code → Option Table
  | .line text :: .block items :: .line "\x7d;" :: _ => do
    let digits ← between? (target.handlerType ++ "* table[") "] = \x7b" text.toList
    let length ← decimalLiteral? digits
    let cells ← items.mapM (initialiser? target.null)
    return ⟨length, cells⟩
  | _ => none

/-- The table among some members. -/
def table? (target : Target) : List Code → Option Table
  | [] => none
  | member :: rest => (tableAt? target (member :: rest)).or (table? target rest)

/-- The line that the body of the lookup function follows. -/
def signature (target : Target) (className : String) : String :=
  target.handlerType ++ "* " ++ className ++ "::lookup(" ++ target.identifierType ++
    " identifier) \x7b"

/-- The lookup function of a class, with the table among its private members. -/
def function? (target : Target) (artifact : Artifact) : Option Function := do
  let members ← blockUnder? "private:" artifact.interface
  let body ← blockUnder? (signature target artifact.className) artifact.implementation
  let statements ← statements? target.null body
  return ⟨table? target members, statements⟩

end Switchboard.Generated
