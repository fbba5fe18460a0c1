import Switchboard.Proofs.Mapping.Accepted

/-!
Names in a mapping that is read from a text. Each of its type names is a word, and so is each of its
slot names: lower case letters are letters, and hexadecimal digits may continue a word that a type
name has begun.
-/

namespace Switchboard

namespace Text

theorem isAlpha_toLower {c : Char} (h : c.isAlpha) : c.toLower.isAlpha := by
  delta Char.isAlpha Char.isUpper Char.isLower Char.toLower at *
  simp only [Bool.or_eq_true, Bool.and_eq_true, decide_eq_true_eq] at h ⊢
  split <;> grind

theorem toLower_of_isDigit {c : Char} (h : c.isDigit) : c.toLower = c := by
  delta Char.isDigit Char.toLower at *
  simp only [Bool.and_eq_true, decide_eq_true_eq] at h ⊢
  split <;> grind

theorem isWordChar_toLower {c : Char} (h : isWordChar c) : isWordChar c.toLower := by
  simp only [isWordChar, Char.isAlphanum, Bool.or_eq_true, beq_iff_eq] at h ⊢
  rcases h with (h | h) | rfl
  · exact .inl (.inl (isAlpha_toLower h))
  · rw [toLower_of_isDigit h]
    exact .inl (.inr h)
  · exact .inr rfl

/-- The digits of a written hexadecimal number. -/
def hexDigits : List Char := "0123456789abcdef".toList

theorem mem_hexDigits_of_mem_toDigits {n : Nat} {c : Char} (h : c ∈ Nat.toDigits 16 n) :
    c ∈ hexDigits := by
  induction n using Nat.strongRecOn with
  | ind n ih =>
      have hdigit : ∀ d < 16, Nat.digitChar d ∈ hexDigits := by decide
      by_cases hn : n < 16
      · rw [Nat.toDigits_of_lt_base hn, List.mem_singleton] at h
        exact h ▸ hdigit n hn
      · rw [Nat.toDigits_of_base_le (by decide) (by omega), List.mem_append] at h
        rcases h with h | h
        · exact ih (n / 16) (by omega) h
        · rw [List.mem_singleton.1 h]
          exact hdigit _ (Nat.mod_lt n (by decide))

/-- A hexadecimal digit may continue a word. -/
theorem isWordChar_of_mem_toDigits {n : Nat} {c : Char} (h : c ∈ Nat.toDigits 16 n) :
    isWordChar c := by
  have hall : hexDigits.all isWordChar := by decide
  exact List.all_eq_true.1 hall c (mem_hexDigits_of_mem_toDigits h)

end Text

theorem SlotName.isWord_of {typeName : String} (h : Text.isWord typeName)
    (identifier : Identifier) : Text.isWord (SlotName.of typeName identifier).text := by
  unfold Text.isWord at h ⊢
  rw [SlotName.toList_of]
  cases ht : typeName.toList with
  | nil => simp [ht] at h
  | cons first rest =>
      simp only [ht, Bool.and_eq_true, Bool.or_eq_true, beq_iff_eq, List.all_eq_true] at h
      simp only [List.map_cons, List.cons_append, Bool.and_eq_true, Bool.or_eq_true, beq_iff_eq,
        List.all_eq_true, List.mem_append, List.mem_map]
      refine ⟨?_, ?_⟩
      · rcases h.1 with hfirst | rfl
        · exact .inl (Text.isAlpha_toLower hfirst)
        · exact .inr rfl
      · rintro c (⟨d, hd, rfl⟩ | hc)
        · exact Text.isWordChar_toLower (h.2 d hd)
        · exact Text.isWordChar_of_mem_toDigits hc

namespace Mapping

variable {name source : String} {config : Config} {mapping : Mapping}

/-- A line that is read has two fields, the first of which denotes the identifier and the second of
which is the type name, a word. -/
theorem readLine_eq_ok {width : Width} {text : List Char} {identifier : Identifier}
    {typeName : String} (h : readLine width text = .ok (identifier, typeName)) :
    ∃ field, Text.fields text = [field, typeName.toList] ∧
      Identifier.read width (String.ofList field) = .ok identifier ∧ Text.isWord typeName := by
  unfold readLine at h
  split at h
  · cases h
  · next field last hfields =>
    split at h
    · cases h
    · next found hread =>
      split at h
      · next hword =>
        cases h
        exact ⟨field, by rw [hfields, String.toList_ofList], hread, hword⟩
      · cases h
  · cases h

theorem isWord_of_readLines {width : Width} {line : Nat} {texts : List (List Char)}
    {entries : List Entry} (h : readLines name width line texts = .ok entries) :
    ∀ e ∈ entries, Text.isWord e.typeName := by
  induction texts generalizing line entries with
  | nil =>
      cases h
      exact fun e he => by cases he
  | cons text rest ih =>
      rw [readLines] at h
      split at h
      · cases h
      · next identifier typeName hline =>
        obtain ⟨others, hrest, rfl⟩ := Except.map_eq_ok_iff.1 h
        obtain ⟨_, _, _, hword⟩ := readLine_eq_ok hline
        intro e he
        rcases List.mem_cons.1 he with rfl | he
        · exact hword
        · exact ih hrest e he

theorem isWord_of_readEntries {entries : List Entry}
    (h : readEntries name source config = .ok entries) :
    ∀ e ∈ entries, Text.isWord e.typeName := by
  unfold readEntries at h
  simp only at h
  split at h
  · exact isWord_of_readLines h
  · split at h
    · exact isWord_of_readLines h
    · cases h

/-- A mapping that is read from a text is the mapping of the entries on its lines. -/
theorem ofSource_eq_ok (h : ofSource name source config = .ok mapping) :
    mapping.name = name ∧ readEntries name source config = .ok mapping.entries := by
  unfold ofSource at h
  split at h
  · split at h
    · cases h
    · next entries hread =>
      obtain ⟨hname, hentries⟩ := ofEntries_eq_ok h
      exact ⟨hname, by rw [hentries, hread]⟩
  · cases h

/-- A mapping is read from every text that its entries are read from. -/
theorem ofSource_of_readEntries
    (h : readEntries mapping.name source config = .ok mapping.entries) :
    ofSource mapping.name source config = .ok mapping := by
  rw [ofSource, if_pos mapping.name_isWordTail, h]
  exact ofEntries_self mapping

/-- The slots of a mapping that is read from a text are named by words. -/
theorem isWord_slotName_of_ofSource (h : ofSource name source config = .ok mapping) :
    ∀ slot ∈ mapping.slots, Text.isWord slot.name.text := by
  intro slot hslot
  obtain ⟨e, he, rfl⟩ := List.mem_map.1 hslot
  exact SlotName.isWord_of (isWord_of_readEntries (ofSource_eq_ok h).2 e he) e.identifier

/-- Their types are words too. -/
theorem isWord_typeName_of_ofSource (h : ofSource name source config = .ok mapping) :
    ∀ slot ∈ mapping.slots, Text.isWord slot.typeName := by
  intro slot hslot
  obtain ⟨e, he, rfl⟩ := List.mem_map.1 hslot
  exact isWord_of_readEntries (ofSource_eq_ok h).2 e he

def ipProtocolsText : String :=
  "protocols\n0x6 TCPAnalyzer\n0x11 UDPAnalyzer\n0x1 ICMPAnalyzer\n"

theorem ofSource_ipProtocolsText : ofSource "ip" ipProtocolsText {} = .ok ipProtocols := by
  have h : readEntries ipProtocols.name ipProtocolsText {} = .ok ipProtocols.entries := by rfl
  exact ofSource_of_readEntries h

end Mapping

end Switchboard
