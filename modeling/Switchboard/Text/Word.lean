/-!
Words of the generated language: what C-family languages call identifiers. The name "identifier" is
kept for the protocol numbers that a dispatcher is asked about.
-/

namespace Switchboard.Text

/-- The characters a word may hold after its first: ASCII letters and digits, and `_`. -/
def isWordChar (c : Char) : Bool :=
  c.isAlphanum || c == '_'

/-- A word, `[A-Za-z_][A-Za-z0-9_]*`. -/
def isWord (text : String) : Bool :=
  match text.toList with
  | [] => false
  | first :: rest => (first.isAlpha || first == '_') && rest.all isWordChar

/-- The rest of a word after a fixed beginning, `[A-Za-z0-9_]+`: a leading digit is fine here. -/
def isWordTail (text : String) : Bool :=
  match text.toList with
  | [] => false
  | chars => chars.all isWordChar

/-- Lower case of ASCII letters; every other character stays as it is. -/
def lowercase (text : String) : String :=
  String.ofList (text.toList.map Char.toLower)

@[simp] theorem toList_lowercase (text : String) :
    (lowercase text).toList = text.toList.map Char.toLower := by
  simp [lowercase]

theorem isWordTail_eq_true_iff {text : String} :
    isWordTail text ↔ text.toList ≠ [] ∧ ∀ c ∈ text.toList, isWordChar c := by
  unfold isWordTail
  cases text.toList <;> simp

/-- A word can also be continued from a fixed beginning. -/
theorem isWordTail_of_isWord {text : String} (h : isWord text) : isWordTail text := by
  unfold isWord at h
  unfold isWordTail
  cases ht : text.toList with
  | nil => simp [ht] at h
  | cons first rest =>
    simp only [ht, Bool.and_eq_true, Bool.or_eq_true] at h
    simp only [List.all_cons, Bool.and_eq_true, isWordChar, Char.isAlphanum, Bool.or_eq_true]
    exact ⟨h.1.imp Or.inl id, h.2⟩

end Switchboard.Text
