import Switchboard.Identifier
import Switchboard.Text.Word

/-!
Which number a field denotes, without regard to a width, and how the reader of identifiers relates to
it: it returns the number a field denotes if the width has room for it. So two readings of one field
under different widths never disagree, and neither do two spellings of one number: leading zeros, the
case of letters and a prefix are free.
-/

namespace Switchboard

namespace Width

theorem contains_iff {width : Width} {n : Nat} : width.contains n ↔ n ≤ width.max := by
  simp [contains]

theorem lt_size_of_contains {width : Width} {n : Nat} (h : width.contains n) : n < UInt32.size :=
  Nat.lt_of_le_of_lt (contains_iff.1 h) width.max_lt_size

end Width

/-! ### Digit strings -/

namespace Text

/-- The upper and the lower case letter are one digit. -/
theorem hexDigit?_toLower (c : Char) : hexDigit? c.toLower = hexDigit? c := by
  by_cases hc : c.toNat < 128
  · have hall : ∀ n < 128, hexDigit? (Char.ofNat n).toLower = hexDigit? (Char.ofNat n) := by
      decide +kernel
    simpa using hall c.toNat hc
  · have hupper : ¬ (c.val ≥ 'A'.val ∧ c.val ≤ 'Z'.val) := by
      rintro ⟨-, hle⟩
      exact hc (Nat.lt_of_le_of_lt (UInt32.le_iff_toNat_le.1 hle) (by decide))
    delta Char.toLower
    rw [dif_neg hupper]

/-- A digit, of either case, may continue a word. -/
theorem isWordChar_of_isSome_hexDigit? {c : Char} (h : (hexDigit? c).isSome) : isWordChar c := by
  have hall : ∀ n < 128, (hexDigit? (Char.ofNat n)).isSome → isWordChar (Char.ofNat n) := by
    decide +kernel
  have hc : c.toNat < 128 := by
    unfold hexDigit? at h
    split at h
    · next hle => exact Nat.lt_of_le_of_lt hle.2 (by decide)
    · split at h
      · next hle => exact Nat.lt_of_le_of_lt hle.2 (by decide)
      · split at h
        · next hle => exact Nat.lt_of_le_of_lt hle.2 (by decide)
        · cases h
  have hchar := hall c.toNat hc
  rw [Char.ofNat_toNat] at hchar
  exact hchar h

theorem isSome_hexDigit?_of_mem {high n : Nat} {text : List Char}
    (h : hexValueFrom? high text = some n) {c : Char} (hc : c ∈ text) : (hexDigit? c).isSome := by
  induction text generalizing high with
  | nil => cases hc
  | cons d rest ih =>
      obtain ⟨digit, hdigit, hrest⟩ := Option.bind_eq_some_iff.1 h
      rcases List.mem_cons.1 hc with rfl | hc
      · rw [hdigit]
        rfl
      · exact ih hrest hc

theorem hexValue?_eq_some_iff {text : List Char} {n : Nat} :
    hexValue? text = some n ↔ text ≠ [] ∧ hexValueFrom? 0 text = some n := by
  unfold hexValue?
  cases text <;> simp

theorem hexValueFrom?_map_toLower (high : Nat) (text : List Char) :
    hexValueFrom? high (text.map Char.toLower) = hexValueFrom? high text := by
  induction text generalizing high with
  | nil => rfl
  | cons c rest ih => simp only [List.map_cons, hexValueFrom?, hexDigit?_toLower, ih]

theorem hexValueFrom?_zeros (zeros : Nat) (text : List Char) :
    hexValueFrom? 0 (List.replicate zeros '0' ++ text) = hexValueFrom? 0 text := by
  induction zeros with
  | zero => rfl
  | succ zeros ih => simpa [List.replicate_succ, hexValueFrom?, hexDigit?] using ih

/-- A digit string keeps its value with leading zeros and with letters of the other case. -/
theorem hexValue?_respelled {text text' : List Char} {n : Nat} (h : hexValue? text = some n)
    (zeros : Nat) (hcase : text'.map Char.toLower = text.map Char.toLower) :
    hexValue? (List.replicate zeros '0' ++ text') = some n := by
  obtain ⟨hne, hvalue⟩ := hexValue?_eq_some_iff.1 h
  have hne' : text' ≠ [] := by
    rintro rfl
    exact hne (List.map_eq_nil_iff.1 hcase.symm)
  refine hexValue?_eq_some_iff.2 ⟨by simp [hne'], ?_⟩
  rw [hexValueFrom?_zeros, ← hexValueFrom?_map_toLower, hcase, hexValueFrom?_map_toLower, hvalue]

end Text

/-! ### Fields -/

namespace Identifier

/-- The field is a non-empty string of hexadecimal digits behind at most one `0x` or `0X`, and its
value is the number. -/
def Denotes (field : List Char) (n : Nat) : Prop :=
  Text.hexValue? (digits field) = some n

variable {field : List Char} {n : Nat}

theorem Denotes.unique {field : List Char} {m n : Nat} (hm : Denotes field m)
    (hn : Denotes field n) : m = n :=
  Option.some.inj (hm.symm.trans hn)

theorem read_eq_ok_iff {width : Width} {field : String} {identifier : Identifier} :
    read width field = .ok identifier ↔
      Denotes field.toList identifier.toNat ∧ width.contains identifier.toNat := by
  unfold read Denotes
  cases hvalue : Text.hexValue? (digits field.toList) with
  | none => simp
  | some n =>
      simp only
      split
      · next hfits =>
        have hn : (UInt32.ofNat n).toNat = n :=
          UInt32.toNat_ofNat_of_lt' (Width.lt_size_of_contains hfits)
        constructor
        · intro h
          cases h
          rw [hn]
          exact ⟨rfl, hfits⟩
        · rintro ⟨h, -⟩
          rw [← UInt32.ofNat_toNat (x := identifier), Option.some.inj h]
      · next hfits =>
        refine ⟨fun h => (by cases h), ?_⟩
        rintro ⟨h, hcontains⟩
        rw [Option.some.inj h] at hfits
        exact absurd hcontains hfits

/-! ### Spellings -/

/-- A digit string has nothing in front of its digits, since neither mark of a prefix is a digit. -/
theorem denotes_of_hexValue? (h : Text.hexValue? field = some n) : Denotes field n := by
  have hdigit : ∀ c ∈ field, (Text.hexDigit? c).isSome := fun c hc =>
    Text.isSome_hexDigit?_of_mem (Text.hexValue?_eq_some_iff.1 h).2 hc
  have hdigits : digits field = field := by
    unfold digits
    split
    · exact absurd (hdigit 'x' (by simp)) (by decide)
    · exact absurd (hdigit 'X' (by simp)) (by decide)
    · rfl
  rw [Denotes, hdigits]
  exact h

/-- What a digit string denotes is denoted just as well with leading zeros, with letters of the other
case and behind a prefix. -/
theorem denotes_respelled {field' mark : List Char} (h : Text.hexValue? field = some n)
    (zeros : Nat) (hcase : field'.map Char.toLower = field.map Char.toLower)
    (hmark : mark = [] ∨ mark = ['0', 'x'] ∨ mark = ['0', 'X']) :
    Denotes (mark ++ (List.replicate zeros '0' ++ field')) n := by
  have hvalue := Text.hexValue?_respelled h zeros hcase
  rcases hmark with rfl | rfl | rfl
  · exact denotes_of_hexValue? hvalue
  · exact hvalue
  · exact hvalue

/-- The digits of an identifier denote it. -/
theorem denotes_hex (identifier : Identifier) :
    Denotes identifier.hex.toList identifier.toNat :=
  denotes_of_hexValue? (Text.hexValue?_hex identifier.toNat)

/-- A written identifier denotes itself. -/
theorem denotes_literal (identifier : Identifier) :
    Denotes identifier.literal.toList identifier.toNat := by
  have hliteral : identifier.literal.toList = '0' :: 'x' :: (Text.hex identifier.toNat).toList := by
    simp [literal, Text.hexLiteral]
  rw [hliteral]
  exact Text.hexValue?_hex identifier.toNat

theorem mem_digits_or {c : Char} (hc : c ∈ field) :
    c ∈ digits field ∨ c = '0' ∨ c = 'x' ∨ c = 'X' := by
  unfold digits
  split
  · grind
  · grind
  · exact .inl hc

/-- A field that denotes a number reads like the rest of a word. -/
theorem Denotes.isWordChar (h : Denotes field n) :
    field ≠ [] ∧ ∀ c ∈ field, Text.isWordChar c := by
  obtain ⟨hne, hvalue⟩ := Text.hexValue?_eq_some_iff.1 h
  refine ⟨fun hnil => hne (by rw [hnil]; rfl), fun c hc => ?_⟩
  rcases mem_digits_or hc with hc | rfl | rfl | rfl
  · exact Text.isWordChar_of_isSome_hexDigit? (Text.isSome_hexDigit?_of_mem hvalue hc)
  · rfl
  · rfl
  · rfl

end Identifier

end Switchboard
