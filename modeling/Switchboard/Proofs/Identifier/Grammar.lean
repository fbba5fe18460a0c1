import Mathlib.Data.Nat.Digits.Defs
import Switchboard.Proofs.Identifier.Reading
import Switchboard.Proofs.Mapping.Collisions

/-!
The grammar of identifier fields: a non-empty string of hexadecimal digits behind at most one `0x` or
`0X`, whose value is a number in base 16 without any bound (`Spells`). Of a field outside the grammar the
reader says that it is not hexadecimal, and of one whose value the width has no room for that it is too
wide. Every other field is read as its value.

The digits are said through their places in the alphabet (`IsHexDigit`) and the value through the list
of the digits, so nothing in the grammar is taken from the reader, which goes through a field from the
left and moves what it has read up one place a digit.

A reader that keeps 64 bits of the value has to stop when the next digit no longer fits. It never reads
anything else (`readInWord_eq_read`): the value only grows from digit to digit, so once it has left the
64 bits it is out of every width, and as long as zeros are read it does not grow at all.
-/

namespace Switchboard

/-! ### Digits and values -/

namespace Text

/-- The character is the hexadecimal digit of the number, in either case. -/
def IsHexDigit (c : Char) (digit : Nat) : Prop :=
  ('0' ≤ c ∧ c ≤ '9' ∧ c.toNat = '0'.toNat + digit) ∨
    ('a' ≤ c ∧ c ≤ 'f' ∧ c.toNat + 10 = 'a'.toNat + digit) ∨
    ('A' ≤ c ∧ c ≤ 'F' ∧ c.toNat + 10 = 'A'.toNat + digit)

/-- The text is a non-empty string of hexadecimal digits, and the number is its value in base 16. -/
def IsHexNumber (text : List Char) (n : Nat) : Prop :=
  text ≠ [] ∧ ∃ digits, List.Forall₂ IsHexDigit text digits ∧ n = Nat.ofDigits 16 digits.reverse

variable {c : Char} {digit high n : Nat} {text : List Char}

theorem hexDigit?_eq_some_iff : hexDigit? c = some digit ↔ IsHexDigit c digit := by
  simp only [hexDigit?, IsHexDigit, le_iff_toNat_le, Char.reduceToNat]
  split
  · simp only [Option.some.injEq]
    omega
  · split
    · simp only [Option.some.injEq]
      omega
    · split
      · simp only [Option.some.injEq]
        omega
      · simp only [reduceCtorEq, false_iff]
        omega

/-- The value of more digits is what was read so far, moved up by their number, and their own value. -/
theorem hexValueFrom?_eq_some_iff : hexValueFrom? high text = some n ↔
    ∃ digits, List.Forall₂ IsHexDigit text digits ∧
      n = high * 16 ^ text.length + Nat.ofDigits 16 digits.reverse := by
  induction text generalizing high with
  | nil =>
      simp only [hexValueFrom?, Option.some.injEq, List.forall₂_nil_left_iff, exists_eq_left]
      simp [eq_comm]
  | cons c rest ih =>
      simp only [hexValueFrom?, Option.bind_eq_some_iff, hexDigit?_eq_some_iff, ih,
        List.forall₂_cons_left_iff]
      constructor
      · rintro ⟨digit, hdigit, digits, hdigits, rfl⟩
        refine ⟨digit :: digits, ⟨digit, digits, hdigit, hdigits, rfl⟩, ?_⟩
        rw [List.length_cons, Nat.ofDigits_reverse_cons, hdigits.length_eq]
        ring
      · rintro ⟨_, ⟨digit, digits, hdigit, hdigits, rfl⟩, rfl⟩
        refine ⟨digit, hdigit, digits, hdigits, ?_⟩
        rw [List.length_cons, Nat.ofDigits_reverse_cons, hdigits.length_eq]
        ring

theorem hexValue?_eq_some_iff_isHexNumber : hexValue? text = some n ↔ IsHexNumber text n := by
  rw [hexValue?_eq_some_iff, hexValueFrom?_eq_some_iff, IsHexNumber]
  simp

theorem exists_hexValueFrom? (h : ∀ c ∈ text, (hexDigit? c).isSome) (high : Nat) :
    ∃ n, hexValueFrom? high text = some n := by
  induction text generalizing high with
  | nil => exact ⟨high, rfl⟩
  | cons c rest ih =>
      obtain ⟨hc, hrest⟩ := List.forall_mem_cons.1 h
      obtain ⟨digit, hdigit⟩ := Option.isSome_iff_exists.1 hc
      rw [hexValueFrom?, hdigit]
      exact ih hrest _

/-! ### Values in 64 bits -/

/-- The number in 64 bits; nothing if it does not fit. -/
def inWord? (n : Nat) : Option UInt64 :=
  if n < UInt64.size then some (UInt64.ofNat n) else none

/-- The value of a digit string in 64 bits, after the digits whose value is `high`. Nothing comes of a
text that is no digit string, and nothing comes of digits once their value does not fit. -/
def wordValueFrom? (high : UInt64) : List Char → Option UInt64
  | [] => some high
  | c :: rest => do
    let digit ← hexDigit? c
    let moved ← inWord? (high.toNat * 16)
    let value ← inWord? (moved.toNat + digit)
    wordValueFrom? value rest

theorem le_of_hexValueFrom? (h : hexValueFrom? high text = some n) : high ≤ n := by
  obtain ⟨digits, -, rfl⟩ := hexValueFrom?_eq_some_iff.1 h
  have hpos : 0 < 16 ^ text.length := Nat.pow_pos (by omega)
  have hle := Nat.le_mul_of_pos_right high hpos
  omega

theorem inWord?_eq_some_iff {word : UInt64} : inWord? n = some word ↔ word.toNat = n := by
  unfold inWord?
  split
  · next hfits => rw [Option.some.injEq, ← UInt64.toNat_inj, UInt64.toNat_ofNat_of_lt' hfits, eq_comm]
  · next hfits =>
    refine iff_of_false nofun ?_
    rintro rfl
    exact hfits word.toNat_lt_size

/-- In 64 bits a digit string has its own value, or none if that does not fit. -/
theorem wordValueFrom?_eq_some_iff {high value : UInt64} :
    wordValueFrom? high text = some value ↔ hexValueFrom? high.toNat text = some value.toNat := by
  induction text generalizing high with
  | nil => simp [wordValueFrom?, hexValueFrom?, UInt64.toNat_inj]
  | cons c rest ih =>
      simp only [wordValueFrom?, hexValueFrom?, Option.bind_eq_bind, Option.bind_eq_some_iff,
        inWord?_eq_some_iff, ih]
      refine exists_congr fun digit => and_congr_right fun _ => ?_
      constructor
      · rintro ⟨moved, hmoved, next, hnext, hrest⟩
        rw [hnext, hmoved, Nat.mul_comm] at hrest
        exact hrest
      · -- What has been read so far is no more than the value in the end, so it fits as well.
        intro hrest
        have hfits := Nat.lt_of_le_of_lt (le_of_hexValueFrom? hrest) value.toNat_lt_size
        have hmoved : (UInt64.ofNat (high.toNat * 16)).toNat = high.toNat * 16 :=
          UInt64.toNat_ofNat_of_lt' (by omega)
        have hnext : (UInt64.ofNat (16 * high.toNat + digit)).toNat = 16 * high.toNat + digit :=
          UInt64.toNat_ofNat_of_lt' hfits
        refine ⟨_, hmoved, _, ?_, hnext.symm ▸ hrest⟩
        omega

end Text

namespace Identifier

/-! ### Fields -/

/-- What may stand in front of the digits of a field. -/
def IsMark (mark : List Char) : Prop :=
  mark = [] ∨ mark = ['0', 'x'] ∨ mark = ['0', 'X']

/-- The field is a non-empty string of hexadecimal digits, with at most one mark in front, and the
number is the value of the digits. -/
def Spells (field : List Char) (n : Nat) : Prop :=
  ∃ mark body, field = mark ++ body ∧ IsMark mark ∧ Text.IsHexNumber body n

/-- The same fault of another field. -/
def FieldFault.about (field : String) : FieldFault → FieldFault
  | .notHexadecimal _ => .notHexadecimal field
  | .tooWide _ width => .tooWide field width

variable {width : Width} {field : String} {mark : List Char} {n : Nat}

theorem digits_eq_or (field : List Char) :
    digits field = field ∨ field = '0' :: 'x' :: digits field ∨ field = '0' :: 'X' :: digits field := by
  unfold digits
  split
  · exact .inr (.inl rfl)
  · exact .inr (.inr rfl)
  · exact .inl rfl

theorem denotes_iff_spells {field : List Char} : Denotes field n ↔ Spells field n := by
  constructor
  · intro h
    have hnumber := Text.hexValue?_eq_some_iff_isHexNumber.1 h
    rcases digits_eq_or field with heq | heq | heq
    · exact ⟨[], _, heq.symm, .inl rfl, hnumber⟩
    · exact ⟨['0', 'x'], _, heq, .inr (.inl rfl), hnumber⟩
    · exact ⟨['0', 'X'], _, heq, .inr (.inr rfl), hnumber⟩
  · rintro ⟨mark, body, rfl, hmark, hnumber⟩
    exact denotes_respelled (Text.hexValue?_eq_some_iff_isHexNumber.2 hnumber) 0 rfl hmark

theorem read_of_denotes (h : Denotes field.toList n) (hfits : n ≤ width.max) :
    read width field = .ok (UInt32.ofNat n) := by
  have hn : (UInt32.ofNat n).toNat = n :=
    UInt32.toNat_ofNat_of_lt' (Width.lt_size_of_contains (Width.contains_iff.2 hfits))
  rw [read_eq_ok_iff, hn]
  exact ⟨h, Width.contains_iff.2 hfits⟩

theorem read_of_denotes_of_lt (h : Denotes field.toList n) (hwide : width.max < n) :
    read width field = .error (.tooWide field width) := by
  have hcontains : ¬ width.contains n := by
    rw [Width.contains_iff]
    omega
  rw [Denotes] at h
  simp only [read, h, hcontains, if_false, Bool.false_eq_true]

theorem read_of_not_denotes (h : ∀ n, ¬ Denotes field.toList n) :
    read width field = .error (.notHexadecimal field) := by
  have hnone : Text.hexValue? (digits field.toList) = none := Option.eq_none_iff_forall_ne_some.2 h
  simp only [read, hnone]

/-- There are two faults: a number that the width has no room for, and no number at all. -/
theorem read_eq_error_iff {fault : FieldFault} : read width field = .error fault ↔
    (fault = .tooWide field width ∧ ∃ n, Denotes field.toList n ∧ width.max < n) ∨
      (fault = .notHexadecimal field ∧ ∀ n, ¬ Denotes field.toList n) := by
  constructor
  · intro h
    by_cases hdenotes : ∃ n, Denotes field.toList n
    · obtain ⟨n, hdenotes⟩ := hdenotes
      rcases Nat.lt_or_ge width.max n with hwide | hfits
      · rw [read_of_denotes_of_lt hdenotes hwide] at h
        cases h
        exact .inl ⟨rfl, n, hdenotes, hwide⟩
      · rw [read_of_denotes hdenotes hfits] at h
        cases h
    · push Not at hdenotes
      rw [read_of_not_denotes hdenotes] at h
      cases h
      exact .inr ⟨rfl, hdenotes⟩
  · rintro (⟨rfl, n, hdenotes, hwide⟩ | ⟨rfl, hnone⟩)
    · exact read_of_denotes_of_lt hdenotes hwide
    · exact read_of_not_denotes hnone

/-- Two fields that denote one number are read alike, but for the text that a fault quotes. -/
theorem read_eq_mapError_of_denotes {field' : String} (h : Denotes field.toList n)
    (h' : Denotes field'.toList n) :
    read width field' = (read width field).mapError (FieldFault.about field') := by
  rcases Nat.lt_or_ge width.max n with hwide | hfits
  · rw [read_of_denotes_of_lt h hwide, read_of_denotes_of_lt h' hwide]
    rfl
  · rw [read_of_denotes h hfits, read_of_denotes h' hfits]
    rfl

/-! ### Reading in 64 bits -/

/-- Reads a field as `read` does, but keeps no more than 64 bits of its value. -/
def readInWord (width : Width) (field : String) : Except FieldFault Identifier :=
  if (digits field.toList).isEmpty || !(digits field.toList).all (Text.hexDigit? · |>.isSome) then
    .error (.notHexadecimal field)
  else
    match Text.wordValueFrom? 0 (digits field.toList) with
    | some value =>
      if width.contains value.toNat then .ok value.toUInt32 else .error (.tooWide field width)
    | none => .error (.tooWide field width)

theorem denotes_iff_of_digits {field : List Char} :
    (∃ n, Denotes field n) ↔ digits field ≠ [] ∧ ∀ c ∈ digits field, (Text.hexDigit? c).isSome := by
  simp only [Denotes, Text.hexValue?_eq_some_iff, exists_and_left]
  refine and_congr_right fun _ => ⟨?_, fun h => Text.exists_hexValueFrom? h 0⟩
  rintro ⟨n, hvalue⟩ c hc
  exact Text.isSome_hexDigit?_of_mem hvalue hc

/-- Keeping 64 bits is enough for every field, of any length. -/
theorem readInWord_eq_read (width : Width) (field : String) :
    readInWord width field = read width field := by
  have hguard : ((digits field.toList).isEmpty ||
      !(digits field.toList).all (Text.hexDigit? · |>.isSome)) = true ↔
      ¬ ∃ n, Denotes field.toList n := by
    rw [denotes_iff_of_digits]
    simp [Classical.or_iff_not_imp_left]
  by_cases hdenotes : ∃ n, Denotes field.toList n
  · rw [readInWord, if_neg fun h => hguard.1 h hdenotes]
    obtain ⟨n, hdenotes⟩ := hdenotes
    have hvalue := (Text.hexValue?_eq_some_iff.1 hdenotes).2
    cases hword : Text.wordValueFrom? 0 (digits field.toList) with
    | some value =>
        obtain rfl : n = value.toNat :=
          Option.some.inj (hvalue.symm.trans (Text.wordValueFrom?_eq_some_iff.1 hword))
        rcases Nat.lt_or_ge width.max value.toNat with hwide | hfits
        · have hcontains : ¬ width.contains value.toNat := by
            rw [Width.contains_iff]
            omega
          rw [read_of_denotes_of_lt hdenotes hwide]
          exact if_neg hcontains
        · rw [read_of_denotes hdenotes hfits]
          exact if_pos (Width.contains_iff.2 hfits)
    | none =>
        -- The value has left the 64 bits, and with them every width.
        have hwide : width.max < n := by
          by_contra hfits
          have hlt : n < UInt64.size := by
            have := width.max_lt_size
            have hsize : UInt32.size ≤ UInt64.size := by decide
            omega
          have hn : (UInt64.ofNat n).toNat = n := UInt64.toNat_ofNat_of_lt' hlt
          have hsome : Text.wordValueFrom? 0 (digits field.toList) = some (UInt64.ofNat n) := by
            rw [Text.wordValueFrom?_eq_some_iff, hn]
            exact hvalue
          rw [hword] at hsome
          cases hsome
        rw [read_of_denotes_of_lt hdenotes hwide]
  · rw [readInWord, if_pos (hguard.2 hdenotes), read_of_not_denotes (not_exists.1 hdenotes)]

/-! ### The grammar -/

/-- The digits of an identifier denote it with letters of either case and behind a mark. -/
theorem denotes_hex_respelled {identifier : Identifier} {text : String} (hmark : IsMark mark)
    (htext : Text.EqualButCase text identifier.hex) :
    Denotes (mark ++ text.toList) identifier.toNat := by
  have hcase : text.toList.map Char.toLower = identifier.hex.toList.map Char.toLower := by
    rw [← Text.toList_lowercase, ← Text.toList_lowercase, Text.lowercase_eq_iff.2 htext]
  exact denotes_respelled (Text.hexValue?_hex identifier.toNat) 0 hcase hmark

/-- A field is read as an identifier exactly when it spells it and the width has room for it. A field
that spells a larger number is too wide, whatever its length, and every field that spells no number is
not hexadecimal. Zeros in front of the digits, and a mark in front of these, change neither the number
nor the kind of the fault, and the digits of an identifier are read as that identifier, in either case.
All of this holds in 64 bits as well. -/
theorem fields_read_by_grammar (width : Width) (field : String) :
    (∀ identifier : Identifier, read width field = .ok identifier ↔
        Spells field.toList identifier.toNat ∧ identifier.toNat ≤ width.max) ∧
      (∀ fault, read width field = .error fault ↔
        (fault = .tooWide field width ∧ ∃ n, Spells field.toList n ∧ width.max < n) ∨
          (fault = .notHexadecimal field ∧ ∀ n, ¬ Spells field.toList n)) ∧
      (∀ m n, Spells field.toList m → Spells field.toList n → m = n) ∧
      (∀ mark mark' body n zeros, IsMark mark → IsMark mark' → Text.IsHexNumber body n →
        let padded := String.ofList (mark' ++ (List.replicate zeros '0' ++ body))
        read width padded =
          (read width (String.ofList (mark ++ body))).mapError (FieldFault.about padded)) ∧
      (∀ (identifier : Identifier) mark text, identifier.toNat ≤ width.max → IsMark mark →
        Text.EqualButCase text identifier.hex →
        read width (String.ofList mark ++ text) = .ok identifier) ∧
      readInWord width field = read width field := by
  simp only [← denotes_iff_spells]
  refine ⟨fun identifier => ?_, fun fault => read_eq_error_iff, fun m n => Denotes.unique, ?_, ?_,
    readInWord_eq_read width field⟩
  · rw [read_eq_ok_iff, Width.contains_iff]
  · intro mark mark' body n zeros hmark hmark' hbody
    have hvalue := Text.hexValue?_eq_some_iff_isHexNumber.2 hbody
    apply read_eq_mapError_of_denotes (n := n)
    · rw [String.toList_ofList]
      exact denotes_respelled hvalue 0 rfl hmark
    · rw [String.toList_ofList]
      exact denotes_respelled hvalue zeros rfl hmark'
  · intro identifier mark text hfits hmark htext
    rw [read_eq_ok_iff, Width.contains_iff, String.toList_append, String.toList_ofList]
    exact ⟨denotes_hex_respelled hmark htext, hfits⟩

/-- Twenty zeros do not make a field too wide, 17 digits that need 65 bits do so, and a second mark is
no digit. -/
theorem fields_read_extremes :
    read .u16 (String.ofList (['0', 'X'] ++ (List.replicate 20 '0' ++ ['8', '6', 'd', 'D']))) =
        .ok 0x86dd ∧
      read .u32 "0x10000000000000006" = .error (.tooWide "0x10000000000000006" .u32) ∧
      read .u32 "0x0x6" = .error (.notHexadecimal "0x0x6") := by
  have hbody : Text.IsHexNumber ['8', '6', 'd', 'D'] 0x86dd :=
    Text.hexValue?_eq_some_iff_isHexNumber.1 (by decide)
  have hwide : Text.IsHexNumber "10000000000000006".toList 0x10000000000000006 :=
    Text.hexValue?_eq_some_iff_isHexNumber.1 (by decide)
  refine ⟨?_, ?_, ?_⟩
  · obtain ⟨hread, -, -, hpadded, -, -⟩ := fields_read_by_grammar .u16 "86dD"
    have hread : read .u16 "86dD" = .ok 0x86dd :=
      (hread 0x86dd).2 ⟨⟨[], _, rfl, .inl rfl, hbody⟩, by decide⟩
    have hpadded := hpadded [] ['0', 'X'] _ _ 20 (.inl rfl) (.inr (.inr rfl)) hbody
    exact hpadded.trans (congrArg _ hread)
  · obtain ⟨-, hfault, -⟩ := fields_read_by_grammar .u32 "0x10000000000000006"
    have hspells : Spells "0x10000000000000006".toList 0x10000000000000006 :=
      ⟨['0', 'x'], _, rfl, .inr (.inl rfl), hwide⟩
    exact (hfault _).2 (.inl ⟨rfl, _, hspells, by decide⟩)
  · obtain ⟨-, hfault, -⟩ := fields_read_by_grammar .u32 "0x0x6"
    have hnone : Text.hexValue? (digits "0x0x6".toList) = none := by decide
    refine (hfault _).2 (.inr ⟨rfl, fun n hspells => ?_⟩)
    rw [← denotes_iff_spells, Denotes, hnone] at hspells
    cases hspells

end Identifier

end Switchboard
