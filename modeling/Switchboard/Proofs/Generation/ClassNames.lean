import Switchboard.Proofs.Output.Units

/-!
When two classes have one name. The name of a class tells its strategy and its mapping, but for the
case of the first letter of the mapping, which the class name does not keep.
-/

namespace Switchboard

namespace Text

/-- Equal but for the case of the first character, if that is an ASCII letter. -/
def EqualButFirstCase (text other : String) : Prop :=
  text.toList.tail = other.toList.tail ∧
    text.toList.head?.map Char.toLower = other.toList.head?.map Char.toLower

instance (text other : String) : Decidable (EqualButFirstCase text other) :=
  inferInstanceAs (Decidable (_ ∧ _))

/-- On ASCII, upper and lower case tell the same characters apart. -/
theorem toUpper_eq_iff_toLower_eq {c d : Char} (hc : c.toNat < 128) (hd : d.toNat < 128) :
    c.toUpper = d.toUpper ↔ c.toLower = d.toLower := by
  have hupper : ∀ n < 128, (Char.ofNat n).toLower.toUpper = (Char.ofNat n).toUpper := by
    decide +kernel
  have hlower : ∀ n < 128, (Char.ofNat n).toUpper.toLower = (Char.ofNat n).toLower := by
    decide +kernel
  have hupper' {c : Char} (hc : c.toNat < 128) : c.toLower.toUpper = c.toUpper := by
    have h := hupper c.toNat hc
    rwa [Char.ofNat_toNat] at h
  have hlower' {c : Char} (hc : c.toNat < 128) : c.toUpper.toLower = c.toLower := by
    have h := hlower c.toNat hc
    rwa [Char.ofNat_toNat] at h
  constructor
  · intro h
    rw [← hlower' hc, ← hlower' hd, h]
  · intro h
    rw [← hupper' hc, ← hupper' hd, h]

theorem capitalize_eq_iff {text other : String} (h : isWordTail text) (h' : isWordTail other) :
    capitalize text = capitalize other ↔ EqualButFirstCase text other := by
  obtain ⟨hne, hall⟩ := isWordTail_eq_true_iff.1 h
  obtain ⟨hne', hall'⟩ := isWordTail_eq_true_iff.1 h'
  obtain ⟨c, rest, htext⟩ := List.exists_cons_of_ne_nil hne
  obtain ⟨d, rest', hother⟩ := List.exists_cons_of_ne_nil hne'
  rw [htext] at hall
  rw [hother] at hall'
  have hc := toNat_lt_of_isWordChar (hall c List.mem_cons_self)
  have hd := toNat_lt_of_isWordChar (hall' d List.mem_cons_self)
  simp only [capitalize, EqualButFirstCase, htext, hother, uppercase_of_ascii hc,
    uppercase_of_ascii hd, String.ofList_inj, List.singleton_append, List.cons.injEq,
    toUpper_eq_iff_toLower_eq hc hd, List.tail_cons, List.head?_cons, Option.map_some,
    Option.some.injEq]
  exact And.comm

theorem length_capitalize {text : String} (h : isWordTail text) :
    (capitalize text).length = text.length := by
  obtain ⟨hne, hall⟩ := isWordTail_eq_true_iff.1 h
  obtain ⟨c, rest, htext⟩ := List.exists_cons_of_ne_nil hne
  rw [htext] at hall
  have hc := toNat_lt_of_isWordChar (hall c List.mem_cons_self)
  rw [← String.length_toList, ← String.length_toList, capitalize, htext]
  simp [uppercase_of_ascii hc]

end Text

/-- A class is not called like its mapping. -/
theorem Strategy.className_ne (strategy : Strategy) {mapping : String}
    (h : Text.isWordTail mapping) : strategy.className mapping ≠ mapping := by
  intro heq
  have hlength := congrArg String.length heq
  rw [className, String.length_append, String.length_append, Text.length_capitalize h] at hlength
  have hstem : classStem.length = 9 := rfl
  omega

/-- No label begins another one, so what stands behind a label is told apart from it. -/
theorem Strategy.label_append_inj {strategy other : Strategy} {tail tail' : String} :
    strategy.label ++ tail = other.label ++ tail' ↔ strategy = other ∧ tail = tail' := by
  constructor
  · intro h
    rw [← String.toList_inj, String.toList_append, String.toList_append] at h
    -- The labels differ in their first letters.
    cases strategy <;> cases other <;> simp [label, String.toList_inj] at h ⊢ <;> exact h
  · rintro ⟨rfl, rfl⟩
    rfl

/-- The name of a class tells the strategy and the mapping, but for the case of its first letter. -/
theorem Strategy.className_eq_iff {strategy other : Strategy} {mapping mapping' : String} :
    strategy.className mapping = other.className mapping' ↔
      strategy = other ∧ Text.capitalize mapping = Text.capitalize mapping' := by
  rw [className, className, String.append_assoc, String.append_assoc, String.append_right_inj,
    label_append_inj]

end Switchboard
