import Mathlib.Data.List.Nodup
import Switchboard.Identifier

/-!
What the `lookup` function of a generated class means. Its body is made of four shapes of statements:
a `return`, the declaration of the rebased index, a `switch` over the identifier and a chain of
`if` and `else if`. The bodies that a `switch` and a chain guard hold `return` statements only, so
control flow is settled by which of them is reached first.

The meaning is the one of the generated language. A `switch` is entered at the label that denotes the
identifier, else at `default`, and falls through from there; an `if` evaluates tests joined by `&&`
from the left and stops at the first that fails; the index is a signed number of 64 bits; what a table
is not initialised with is null. Whatever that language leaves undefined or refuses is a `Trouble`
here: an access outside the declared length, an index or a table that does not exist, an overflow, two
equal labels, more initialisers than cells, and an end that is reached without a `return`.
-/

namespace Switchboard.Generated

/-- What a pointer of a generated class points to. -/
inductive Pointer
  | null
  | member (name : String)
deriving DecidableEq, Repr

inductive Expression
  | null
  /-- The address of a member. -/
  | address (name : String)
  /-- The cell of the table at the index. -/
  | cell
deriving DecidableEq, Repr

inductive Test
  | identifierIs (n : Nat)
  | indexNotNegative
  | indexBelow (n : Nat)
  | cellNotNull
deriving DecidableEq, Repr

inductive Label
  | number (n : Nat)
  | default
deriving DecidableEq, Repr

/-- A label of a switch and the values that are returned behind it. -/
abbrev Section := Label × List Expression

/-- The tests of an `if`, joined by `&&`, and the values that are returned behind them. -/
abbrev Arm := List Test × List Expression

inductive Statement
  | answer (value : Expression)
  /-- The index, as the distance of the identifier from a number. -/
  | rebase (base : Nat)
  | switch (sections : List Section)
  | chain (arms : List Arm)
deriving DecidableEq, Repr

/-- A table with its declared length and its initialisers. -/
structure Table where
  length : Nat
  cells : List Pointer
deriving DecidableEq, Repr

/-- A lookup function and the table of its class. -/
structure Function where
  table? : Option Table
  body : List Statement
deriving DecidableEq, Repr

inductive Trouble
  | outOfBounds
  | undeclared
  | overflow
  | repeatedLabel
  | tooManyInitialisers
  | noReturn
deriving DecidableEq, Repr

/-- What a statement can refer to. -/
structure Frame where
  table? : Option Table
  identifier : Identifier
  index? : Option Int

namespace Frame

def readCell (frame : Frame) : Except Trouble Pointer :=
  match frame.table?, frame.index? with
  | some table, some index =>
    if 0 ≤ index ∧ index < table.length then .ok (table.cells[index.toNat]?.getD .null)
    else .error .outOfBounds
  | _, _ => .error .undeclared

def evaluate (frame : Frame) : Expression → Except Trouble Pointer
  | .null => .ok .null
  | .address name => .ok (.member name)
  | .cell => frame.readCell

def holds (frame : Frame) : Test → Except Trouble Bool
  | .identifierIs n => .ok (frame.identifier.toNat == n)
  | .indexNotNegative =>
    match frame.index? with
    | some index => .ok (0 ≤ index)
    | none => .error .undeclared
  | .indexBelow n =>
    match frame.index? with
    | some index => .ok (index < n)
    | none => .error .undeclared
  | .cellNotNull => frame.readCell.map (· != .null)

def allHold (frame : Frame) : List Test → Except Trouble Bool
  | [] => .ok true
  | test :: rest =>
    match frame.holds test with
    | .ok true => allHold frame rest
    | stopped => stopped

/-- The first value behind the first `if` whose tests hold. -/
def choose (frame : Frame) : List Arm → Except Trouble (Option Expression)
  | [] => .ok none
  | (tests, values) :: rest =>
    match frame.allHold tests with
    | .ok true => .ok values.head?
    | .ok false => choose frame rest
    | .error trouble => .error trouble

/-- The sections from the one that a switch is entered at. -/
def entered (frame : Frame) (sections : List Section) : List Section :=
  match sections.dropWhile (·.1 != .number frame.identifier.toNat) with
  | [] => sections.dropWhile (·.1 != .default)
  | found => found

def run (frame : Frame) : List Statement → Except Trouble Pointer
  | [] => .error .noReturn
  | .answer value :: _ => frame.evaluate value
  | .rebase base :: rest =>
    let index : Int := frame.identifier.toNat - base
    if -0x8000000000000000 ≤ index ∧ index < 0x8000000000000000 then run { frame with index? := some index } rest
    else .error .overflow
  | .switch sections :: rest =>
    if (sections.map (·.1)).Nodup then
      match ((frame.entered sections).flatMap (·.2)).head? with
      | some value => frame.evaluate value
      | none => run frame rest
    else .error .repeatedLabel
  | .chain arms :: rest =>
    match frame.choose arms with
    | .ok (some value) => frame.evaluate value
    | .ok none => run frame rest
    | .error trouble => .error trouble

end Frame

/-- Calls the function on an identifier. -/
def Function.call (function : Function) (identifier : Identifier) : Except Trouble Pointer :=
  if function.table?.all (fun table => table.cells.length ≤ table.length) then
    Frame.run ⟨function.table?, identifier, none⟩ function.body
  else .error .tooManyInitialisers

end Switchboard.Generated
