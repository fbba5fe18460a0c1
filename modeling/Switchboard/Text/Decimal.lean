/-!
Decimal numbers with a bound. A number is a non-empty string of ASCII digits behind at most one `+`,
with any number of leading zeros, whose value does not exceed the bound. The characters are judged
from the left and the first fault is the one reported: a character that is no digit, or the digit
with which the value passes the bound.
-/

namespace Switchboard.Text

inductive DecimalFault
  | noDigits
  | badDigit
  | tooLarge
deriving DecidableEq, Repr

def DecimalFault.message : DecimalFault → String
  | noDigits => "cannot parse integer from empty string"
  | badDigit => "invalid digit found in string"
  | tooLarge => "number too large to fit in target type"

/-- The value of a digit string, after the digits whose value is `high`. -/
def decimalFrom (bound high : Nat) : List Char → Except DecimalFault Nat
  | [] => .ok high
  | c :: rest =>
    if !c.isDigit then .error .badDigit
    else
      let value := 10 * high + (c.toNat - '0'.toNat)
      if value ≤ bound then decimalFrom bound value rest else .error .tooLarge

def decimal (bound : Nat) (text : String) : Except DecimalFault Nat :=
  match text.toList with
  | [] => .error .noDigits
  | ['+'] => .error .badDigit
  | '+' :: digits => decimalFrom bound 0 digits
  | digits => decimalFrom bound 0 digits

end Switchboard.Text
