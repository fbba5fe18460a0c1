import Mathlib.Algebra.Ring.Nat
import Mathlib.Data.List.Forall2
import Switchboard.Slot

/-!
Which entries ask for one slot name. A slot name is a type name in lower case with the digits of an
identifier behind it, and nothing marks where the one ends and the other begins. So the last letters
of a type name can be taken for digits: `A1` under `0x1` and `A` under `0x11` are both kept in `a11`.

The digits of a number are unpadded, and a number has one digit string only. A digit string that ends
a longer one belongs to the remainder by a power of 16, and what is in front of it there is the digit
string of the quotient (`toDigits_append_toDigits`). Nothing but the digits of that quotient can be
given to the type name instead.
-/

namespace Switchboard

/-! ### Letters of either case -/

namespace Text

/-- A letter and its capital, in ASCII. -/
def CapitalOf (capital letter : Char) : Prop :=
  'A' ≤ capital ∧ capital ≤ 'Z' ∧ letter.toNat = capital.toNat + 32

/-- Equal but for the case of ASCII letters. -/
def EqualButCase (text other : String) : Prop :=
  List.Forall₂ (fun c d => c = d ∨ CapitalOf c d ∨ CapitalOf d c) text.toList other.toList

theorem le_iff_toNat_le {c d : Char} : c ≤ d ↔ c.toNat ≤ d.toNat := by
  rw [Char.le_def, UInt32.le_iff_toNat_le]
  rfl

theorem toNat_toLower (c : Char) :
    c.toLower.toNat = if 'A' ≤ c ∧ c ≤ 'Z' then c.toNat + 32 else c.toNat := by
  delta Char.toLower
  simp only [ge_iff_le, Char.le_def]
  split
  · next h =>
    have hle := UInt32.le_iff_toNat_le.1 h.2
    simp only [Char.toNat, UInt32.toNat_add]
    grind
  · rfl

theorem toLower_eq_iff {c d : Char} :
    c.toLower = d.toLower ↔ c = d ∨ CapitalOf c d ∨ CapitalOf d c := by
  rw [← Char.toNat_inj, ← Char.toNat_inj, toNat_toLower, toNat_toLower]
  simp only [CapitalOf, le_iff_toNat_le]
  have hA : 'A'.toNat = 65 := rfl
  have hZ : 'Z'.toNat = 90 := rfl
  split <;> split <;> omega

/-- Lower case tells the same texts apart as letters of either case do not. -/
theorem lowercase_eq_iff {text other : String} :
    lowercase text = lowercase other ↔ EqualButCase text other := by
  rw [← String.toList_inj, toList_lowercase, toList_lowercase, EqualButCase,
    ← List.forall₂_eq_eq_eq, List.forall₂_map_left_iff, List.forall₂_map_right_iff]
  simp only [toLower_eq_iff]

/-! ### Digit strings -/

/-- Digits behind the digits of a number move it up by a power of 16. -/
theorem toDigits_append_toDigits {high : Nat} (hhigh : 0 < high) (low : Nat) :
    Nat.toDigits 16 high ++ Nat.toDigits 16 low =
      Nat.toDigits 16 (16 ^ (Nat.toDigits 16 low).length * high + low) := by
  induction low using Nat.strongRecOn with
  | ind low ih =>
      by_cases hlow : low < 16
      · rw [Nat.toDigits_append_toDigits (by omega) hhigh hlow, Nat.toDigits_of_lt_base hlow]
        rfl
      · have hdigits := Nat.toDigits_of_base_le (b := 16) (n := low) (by omega) (by omega)
        have hlast : Nat.toDigits 16 (low % 16) = [Nat.digitChar (low % 16)] :=
          Nat.toDigits_of_lt_base (Nat.mod_lt low (by omega))
        have hpos : 0 < 16 ^ (Nat.toDigits 16 (low / 16)).length * high + low / 16 := by omega
        calc Nat.toDigits 16 high ++ Nat.toDigits 16 low
          _ = Nat.toDigits 16 high ++ Nat.toDigits 16 (low / 16) ++ Nat.toDigits 16 (low % 16) := by
            rw [hdigits, hlast, List.append_assoc]
          _ = Nat.toDigits 16 (16 ^ (Nat.toDigits 16 (low / 16)).length * high + low / 16) ++
                Nat.toDigits 16 (low % 16) := by rw [ih (low / 16) (by omega)]
          _ = Nat.toDigits 16 (16 * (16 ^ (Nat.toDigits 16 (low / 16)).length * high + low / 16) +
                low % 16) := Nat.toDigits_append_toDigits (by omega) hpos (Nat.mod_lt low (by omega))
          _ = Nat.toDigits 16 (16 ^ (Nat.toDigits 16 low).length * high + low) := by
            congr 1
            rw [hdigits, List.length_append, List.length_singleton, Nat.pow_succ', Nat.mul_assoc]
            omega

theorem lt_pow_length_toDigits (n : Nat) : n < 16 ^ (Nat.toDigits 16 n).length :=
  (Nat.length_toDigits_le_iff (by omega) Nat.length_toDigits_pos).1 (Nat.le_refl _)

/-- A number with more digits is larger. -/
theorem lt_of_length_toDigits_lt {m n : Nat}
    (h : (Nat.toDigits 16 m).length < (Nat.toDigits 16 n).length) : m < n := by
  have hm := lt_pow_length_toDigits m
  have hn : 16 ^ (Nat.toDigits 16 m).length ≤ n := by
    rw [← Nat.not_lt, ← Nat.length_toDigits_le_iff (by omega) Nat.length_toDigits_pos]
    omega
  omega

theorem toDigits_injective : Function.Injective (Nat.toDigits 16) := by
  intro m n h
  apply Option.some.inj
  rw [← hexValueFrom?_toDigits m, h, hexValueFrom?_toDigits]

/-- What stands in front of the digits of a number, in a longer digit string, are the digits of the
quotient by a power of 16, and the number is the remainder. -/
theorem eq_toDigits_of_append {front : List Char} {m n : Nat} (hfront : front ≠ [])
    (h : front ++ Nat.toDigits 16 m = Nat.toDigits 16 n) :
    front = Nat.toDigits 16 (n / 16 ^ (Nat.toDigits 16 m).length) ∧
      n % 16 ^ (Nat.toDigits 16 m).length = m := by
  have hn := hexValueFrom?_toDigits n
  rw [← h, hexValueFrom?_append, Option.bind_eq_some_iff] at hn
  obtain ⟨high, hhigh, hn⟩ := hn
  -- With nothing but zeros in front, the numbers would be equal, and so would their digit strings.
  have hpos : 0 < high := by
    rw [Nat.pos_iff_ne_zero]
    rintro rfl
    obtain rfl : m = n := Option.some.inj ((hexValueFrom?_toDigits m).symm.trans hn)
    exact hfront (List.self_eq_append_left.1 h.symm)
  have hvalue : n = 16 ^ (Nat.toDigits 16 m).length * high + m := by
    apply Option.some.inj
    rw [← hn, ← hexValueFrom?_toDigits (_ * high + m), ← toDigits_append_toDigits hpos,
      hexValueFrom?_append, hexValueFrom?_toDigits, Option.bind_some]
  have hm := lt_pow_length_toDigits m
  have hquotient : n / 16 ^ (Nat.toDigits 16 m).length = high := by
    rw [hvalue, Nat.mul_add_div (by omega), Nat.div_eq_of_lt hm, Nat.add_zero]
  refine ⟨?_, ?_⟩
  · rw [hquotient]
    refine (List.append_left_inj (Nat.toDigits 16 m)).1 ?_
    rw [h, toDigits_append_toDigits hpos, hvalue]
  · rw [hvalue, Nat.mul_add_mod, Nat.mod_eq_of_lt hm]

/-- A digit string ends with the digits of its own number or of a smaller one. -/
theorem eq_or_lt_of_append {front : List Char} {m n : Nat}
    (h : front ++ Nat.toDigits 16 m = Nat.toDigits 16 n) :
    (front = [] ∧ m = n) ∨ (front ≠ [] ∧ m < n) := by
  by_cases hfront : front = []
  · subst hfront
    exact .inl ⟨rfl, toDigits_injective h⟩
  · have hlength := congrArg List.length h
    have hpos := List.length_pos_iff.2 hfront
    rw [List.length_append] at hlength
    exact .inr ⟨hfront, lt_of_length_toDigits_lt (by omega)⟩

/-- Digits stand behind two texts, those of the larger number behind the second. The whole is one text
when the first text ends with the digits that the larger number has in front of the smaller one. -/
theorem append_toDigits_eq_iff {text text' : List Char} {m n : Nat} (hle : m ≤ n) :
    text ++ Nat.toDigits 16 m = text' ++ Nat.toDigits 16 n ↔
      (m = n ∧ text = text') ∨
      (m < n ∧ n % 16 ^ (Nat.toDigits 16 m).length = m ∧
        text = text' ++ Nat.toDigits 16 (n / 16 ^ (Nat.toDigits 16 m).length)) := by
  constructor
  · intro h
    obtain ⟨front, rfl, hdigits⟩ | ⟨front, rfl, hdigits⟩ := List.append_eq_append_iff.1 h
    · -- The smaller number cannot have the longer digit string.
      obtain ⟨rfl, rfl⟩ | ⟨-, hlt⟩ := eq_or_lt_of_append hdigits.symm
      · exact .inl ⟨rfl, (List.append_nil text).symm⟩
      · omega
    · obtain ⟨rfl, rfl⟩ | ⟨hfront, hlt⟩ := eq_or_lt_of_append hdigits.symm
      · exact .inl ⟨rfl, List.append_nil text'⟩
      · obtain ⟨hquotient, hmod⟩ := eq_toDigits_of_append hfront hdigits.symm
        exact .inr ⟨hlt, hmod, by rw [← hquotient]⟩
  · rintro (⟨rfl, rfl⟩ | ⟨hlt, hmod, rfl⟩)
    · rfl
    · have hpos : 0 < n / 16 ^ (Nat.toDigits 16 m).length := by
        rw [Nat.pos_iff_ne_zero]
        intro hzero
        rw [Nat.div_eq_zero_iff_lt (Nat.pow_pos (by omega))] at hzero
        rw [Nat.mod_eq_of_lt hzero] at hmod
        omega
      have hsplit := Nat.div_add_mod n (16 ^ (Nat.toDigits 16 m).length)
      rw [hmod] at hsplit
      rw [List.append_assoc, toDigits_append_toDigits hpos, hsplit]

end Text

/-! ### Slot names -/

namespace SlotName

variable {typeName typeName' : String} {x y : Identifier}

theorem of_eq_of_iff_append : of typeName x = of typeName' y ↔
    (Text.lowercase typeName).toList ++ Nat.toDigits 16 x.toNat =
      (Text.lowercase typeName').toList ++ Nat.toDigits 16 y.toNat := by
  rw [SlotName.mk.injEq, ← String.toList_inj]
  simp [of, Identifier.hex]

theorem length_hex (x : Identifier) : x.hex.length = (Nat.toDigits 16 x.toNat).length := by
  rw [← String.length_toList, Identifier.hex, Text.toList_hex]

/-- Exactly which entries ask for one slot name. Under one identifier they do when their types differ
in the case of letters only. Under two identifiers they do when the digits of the smaller one are the
last digits of the larger one, as many of them as the smaller one has, and when the type of the
smaller one ends with those that are left, in lower case. So two identifiers with equally many digits
never lead to one name, whatever the types are. -/
theorem of_eq_of_iff (typeName typeName' : String) (x y : Identifier) :
    (x ≤ y →
      (of typeName x = of typeName' y ↔
        (x = y ∧ Text.EqualButCase typeName typeName') ∨
        (x < y ∧ y.toNat % 16 ^ x.hex.length = x.toNat ∧
          Text.lowercase typeName =
            Text.lowercase typeName' ++ Text.hex (y.toNat / 16 ^ x.hex.length)))) ∧
      (x ≠ y → x.hex.length = y.hex.length → of typeName x ≠ of typeName' y) := by
  refine ⟨fun hle => ?_, fun hne hlength heq => ?_⟩
  · have hquotient : Text.lowercase typeName =
          Text.lowercase typeName' ++ Text.hex (y.toNat / 16 ^ x.hex.length) ↔
        (Text.lowercase typeName).toList = (Text.lowercase typeName').toList ++
          Nat.toDigits 16 (y.toNat / 16 ^ (Nat.toDigits 16 x.toNat).length) := by
      rw [← String.toList_inj, String.toList_append, Text.toList_hex, length_hex]
    rw [hquotient, length_hex, of_eq_of_iff_append,
      Text.append_toDigits_eq_iff (UInt32.le_iff_toNat_le.1 hle), UInt32.toNat_inj,
      ← UInt32.lt_iff_toNat_lt, String.toList_inj, Text.lowercase_eq_iff]
  · rw [length_hex, length_hex] at hlength
    obtain ⟨-, hdigits⟩ := List.append_inj' (of_eq_of_iff_append.1 heq) hlength
    exact hne (UInt32.toNat_inj.1 (Text.toDigits_injective hdigits))

/-- Two entries that ask for `a101`, of which one has the digits `10` in its type name, and two that do
not ask for one name although their digits are equally many. -/
theorem of_eq_of_a101 : (0x1 : Identifier) ≤ 0x101 ∧ of "A10" 0x1 = of "a" 0x101 ∧
    (0x1 : Identifier) ≠ 0x2 ∧ of "A1" 0x1 ≠ of "A" 0x2 := by
  have hle : (0x1 : Identifier) ≤ 0x101 := by decide
  have hne : (0x1 : Identifier) ≠ 0x2 := by decide
  have hiff := (of_eq_of_iff "A10" "a" 0x1 0x101).1 hle
  refine ⟨hle, hiff.2 (.inr ⟨by decide, by decide, by decide⟩), hne, ?_⟩
  exact (of_eq_of_iff "A1" "A" 0x1 0x2).2 hne (by decide)

end SlotName

end Switchboard
