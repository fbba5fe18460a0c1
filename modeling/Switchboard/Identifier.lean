import Switchboard.Text.Hexadecimal

/-!
Identifiers: the protocol numbers a dispatcher is asked about. An identifier always fits in 32 bits;
how many of these bits a mapping may use is its width.

A field denotes an identifier when it is a non-empty string of hexadecimal digits behind at most one
`0x` or `0X`. Its value is computed without a bound and only then compared with the width, so leading
zeros never make a field too wide.
-/

namespace Switchboard

/-- A protocol number, the key of a dispatch. -/
abbrev Identifier := UInt32

inductive Width
  | u8
  | u16
  | u32
deriving DecidableEq, Repr

namespace Width

instance : Inhabited Width := ⟨u16⟩

/-- Every width, the narrowest first. -/
def all : List Width := [u8, u16, u32]

def bits : Width → Nat
  | u8 => 8
  | u16 => 16
  | u32 => 32

def max (width : Width) : Nat :=
  1 <<< width.bits - 1

def name : Width → String
  | u8 => "u8"
  | u16 => "u16"
  | u32 => "u32"

def ofName? (name : String) : Option Width :=
  all.find? (·.name == name)

def contains (width : Width) (n : Nat) : Bool :=
  n ≤ width.max

theorem ofName?_name (width : Width) : ofName? width.name = some width := by
  cases width <;> rfl

/-- Every width fits in an identifier. -/
theorem max_lt_size (width : Width) : width.max < UInt32.size := by
  cases width <;> decide

end Width

namespace Identifier

inductive FieldFault
  | notHexadecimal (field : String)
  | tooWide (field : String) (width : Width)
deriving DecidableEq, Repr

/-- The digits of a field: what follows a leading `0x` or `0X`. -/
def digits : List Char → List Char
  | '0' :: 'x' :: rest => rest
  | '0' :: 'X' :: rest => rest
  | field => field

/-- The identifier a field denotes, if it fits in the width. -/
def read (width : Width) (field : String) : Except FieldFault Identifier :=
  match Text.hexValue? (digits field.toList) with
  | none => .error (.notHexadecimal field)
  | some n => if width.contains n then .ok (UInt32.ofNat n) else .error (.tooWide field width)

def hex (identifier : Identifier) : String :=
  Text.hex identifier.toNat

def literal (identifier : Identifier) : String :=
  Text.hexLiteral identifier.toNat

end Identifier

end Switchboard
