import Mathlib.Tactic.Common
import Switchboard.Text.Decimal

/-!
Decimal numbers, told by their digits.
-/

namespace Switchboard.Text

/-- The text consists of decimal digits, and the number is their value. Zeros may stand in front. -/
def IsDecimal (text : List Char) (n : Nat) : Prop :=
  text ≠ [] ∧ (∀ c ∈ text, c.isDigit) ∧ Nat.ofDigitChars 10 text 0 = n

theorem le_ofDigitChars (high : Nat) (text : List Char) : high ≤ Nat.ofDigitChars 10 text high := by
  induction text generalizing high with
  | nil => exact Nat.le_refl _
  | cons c rest ih =>
      rw [Nat.ofDigitChars_cons]
      have hrest := ih (10 * high + (c.toNat - '0'.toNat))
      omega

/-- Digits whose value keeps to the bound keep to it all the way. -/
theorem decimalFrom_of_digits {bound high : Nat} {text : List Char}
    (hdigits : ∀ c ∈ text, c.isDigit) (hbound : Nat.ofDigitChars 10 text high ≤ bound) :
    decimalFrom bound high text = .ok (Nat.ofDigitChars 10 text high) := by
  induction text generalizing high with
  | nil => rfl
  | cons c rest ih =>
      rw [List.forall_mem_cons] at hdigits
      rw [Nat.ofDigitChars_cons] at hbound ⊢
      have hvalue := Nat.le_trans (le_ofDigitChars _ rest) hbound
      rw [decimalFrom, if_neg (by simp [hdigits.1])]
      simp only [if_pos hvalue, ih hdigits.2 hbound]

theorem decimal_of_isDecimal {n : Nat} {text : String} (h : IsDecimal text.toList n) {bound : Nat}
    (hbound : n ≤ bound) : decimal bound text = .ok n := by
  obtain ⟨hne, hdigits, rfl⟩ := h
  have hfrom := decimalFrom_of_digits hdigits hbound
  unfold decimal
  -- A digit is no sign.
  split
  · next hnil => exact absurd hnil hne
  · next hsign =>
    rw [hsign] at hdigits
    exact absurd (hdigits '+' List.mem_cons_self) (by decide)
  · next hsign =>
    rw [hsign] at hdigits
    exact absurd (hdigits '+' List.mem_cons_self) (by decide)
  · rw [hfrom]

end Switchboard.Text
