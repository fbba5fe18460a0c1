/-!
Hexadecimal numbers. Written, a number has lower case digits and no leading zero; read, it may have
any number of leading zeros and digits of either case, and its value is unbounded.
-/

namespace Switchboard.Text

def hexDigit? (c : Char) : Option Nat :=
  if '0' ≤ c ∧ c ≤ '9' then some (c.toNat - '0'.toNat)
  else if 'a' ≤ c ∧ c ≤ 'f' then some (c.toNat - 'a'.toNat + 10)
  else if 'A' ≤ c ∧ c ≤ 'F' then some (c.toNat - 'A'.toNat + 10)
  else none

/-- The value of a digit string, after the digits whose value is `high`. -/
def hexValueFrom? (high : Nat) : List Char → Option Nat
  | [] => some high
  | c :: rest => (hexDigit? c).bind fun digit => hexValueFrom? (16 * high + digit) rest

/-- The value of a non-empty string of hexadecimal digits; nothing for any other text. -/
def hexValue? (text : List Char) : Option Nat :=
  if text.isEmpty then none else hexValueFrom? 0 text

/-- The lower case hexadecimal digits of a number, `0x86dd` as `86dd`. -/
def hex (n : Nat) : String :=
  String.ofList (Nat.toDigits 16 n)

def hexLiteral (n : Nat) : String :=
  "0x" ++ hex n

@[simp] theorem toList_hex (n : Nat) : (hex n).toList = Nat.toDigits 16 n := by
  simp [hex]

/-- A digit string is read from the left, and what was read so far moves up one place a digit. -/
theorem hexValueFrom?_append (high : Nat) (text more : List Char) :
    hexValueFrom? high (text ++ more) = (hexValueFrom? high text).bind (hexValueFrom? · more) := by
  induction text generalizing high with
  | nil => rfl
  | cons c rest ih =>
    cases hc : hexDigit? c <;> simp [hexValueFrom?, hc, ih]

/-- Each written digit reads back as itself. -/
theorem hexDigit?_digitChar {n : Nat} (h : n < 16) : hexDigit? n.digitChar = some n := by
  revert n
  decide

/-- A written number reads back as itself. -/
theorem hexValueFrom?_toDigits (n : Nat) : hexValueFrom? 0 (Nat.toDigits 16 n) = some n := by
  induction n using Nat.strongRecOn with
  | ind n ih =>
    by_cases h : n < 16
    · simp [Nat.toDigits_of_lt_base h, hexValueFrom?, hexDigit?_digitChar h]
    · have hlt : n / 16 < n := by omega
      rw [Nat.toDigits_of_base_le (by decide) (by omega), hexValueFrom?_append, ih _ hlt]
      simp only [Option.bind_some, hexValueFrom?, hexDigit?_digitChar (Nat.mod_lt n (by decide)),
        Option.some.injEq]
      omega

theorem hexValue?_hex (n : Nat) : hexValue? (hex n).toList = some n := by
  simp [hexValue?, hexValueFrom?_toDigits, Nat.toDigits_ne_nil]

end Switchboard.Text
