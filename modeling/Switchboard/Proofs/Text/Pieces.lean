import Mathlib.Data.List.TakeWhile
import Switchboard.Text.Blank
import Switchboard.Text.Lines
import Switchboard.Text.Word

/-!
Lines and fields by their boundaries. The functions of `Text.Lines` and `Text.Blank` cut a text at
every line feed, or at every blank character, and then mend the pieces. The relations here do not
cut: they say which parts of a text are its lines and its fields by what stands around them. Each
text has exactly one reading under either relation, the one its function computes.
-/

namespace Switchboard.Text

variable {text line field : List Char}

/-! ### Lines -/

/-- The lines of a text. A line feed ends a line and takes a carriage return directly before it
along; a last line without a line feed is kept as it is, if there is anything on it. -/
inductive Lines : List Char → List (List Char) → Prop
  | nil : Lines [] []
  | last {line : List Char} (hne : line ≠ []) (hline : '\n' ∉ line) : Lines line [line]
  | feed {line rest : List Char} {lines : List (List Char)} (hline : '\n' ∉ line)
      (hreturn : line.getLast? ≠ some '\r') (hrest : Lines rest lines) :
      Lines (line ++ '\n' :: rest) (line :: lines)
  | returnFeed {line rest : List Char} {lines : List (List Char)} (hline : '\n' ∉ line)
      (hrest : Lines rest lines) : Lines (line ++ '\r' :: '\n' :: rest) (line :: lines)

/-- What stands before the first line feed is the first line, but for the return of its end. -/
theorem lines_append_feed (hline : '\n' ∉ line) (rest : List Char) :
    lines (line ++ '\n' :: rest) = dropReturn line :: lines rest := by
  unfold lines
  rw [List.splitOn_append_cons_self_of_not_mem hline]
  cases hpieces : rest.splitOn '\n' with
  | nil => exact absurd hpieces (List.splitOn_ne_nil _ _)
  | cons piece pieces => rfl

theorem lines_of_not_mem (hne : line ≠ []) (hline : '\n' ∉ line) : lines line = [line] := by
  rw [lines, List.splitOn_eq_singleton hline]
  simp [linesOfPieces, hne]

/-- A line feed at the very end of a text, behind a line that has been begun, changes no line. -/
theorem lines_concat_feed {text : List Char} {c : Char} (hlast : text.getLast? = some c)
    (hfeed : c ≠ '\n') (hreturn : c ≠ '\r') : lines (text ++ ['\n']) = lines text := by
  induction hlength : text.length using Nat.strongRecOn generalizing text with
  | ind length ih =>
      by_cases hmem : '\n' ∈ text
      · obtain ⟨line, rest, rfl, hline⟩ := List.eq_append_cons_of_mem hmem
        cases rest with
        | nil => simp [Ne.symm hfeed] at hlast
        | cons d more =>
            have hrest : (d :: more).getLast? = some c := by simpa using hlast
            have hlt : (d :: more).length < length := by simp at hlength ⊢; omega
            rw [List.append_assoc, List.cons_append, lines_append_feed hline,
              lines_append_feed hline, ih _ hlt hrest rfl]
      · have hne : text ≠ [] := fun hnil => by simp [hnil] at hlast
        have hkept : dropReturn text = text := dropReturn_of_getLast? (by simpa [hlast] using hreturn)
        rw [lines_append_feed hmem, lines_of_not_mem hne hmem, hkept, lines_nil]

private theorem not_mem_append_return (hline : '\n' ∉ line) : '\n' ∉ line ++ ['\r'] := by
  simp [hline]

theorem Lines.eq_lines {lines : List (List Char)} (h : Lines text lines) :
    Text.lines text = lines := by
  induction h with
  | nil => rfl
  | last hne hline => exact lines_of_not_mem hne hline
  | feed hline hreturn _ ih => rw [lines_append_feed hline, dropReturn_of_getLast? hreturn, ih]
  | @returnFeed line rest _ hline _ ih =>
      have hcut : line ++ '\r' :: '\n' :: rest = (line ++ ['\r']) ++ '\n' :: rest := by simp
      rw [hcut, lines_append_feed (not_mem_append_return hline), dropReturn_append_return, ih]

/-- Every text is read by cutting it behind its first line feed. -/
theorem lines_spec (text : List Char) : Lines text (lines text) := by
  induction hlength : text.length using Nat.strongRecOn generalizing text with
  | ind length ih =>
      by_cases hfeed : '\n' ∈ text
      · obtain ⟨line, rest, rfl, hline⟩ := List.eq_append_cons_of_mem hfeed
        have hrest : Lines rest (lines rest) := ih _ (by simp at hlength; omega) rest rfl
        rw [lines_append_feed hline]
        by_cases hreturn : line.getLast? = some '\r'
        · obtain ⟨before, rfl⟩ := List.getLast?_eq_some_iff.1 hreturn
          have hbefore : '\n' ∉ before := fun hmem => hline (List.mem_append_left _ hmem)
          rw [dropReturn_append_return, List.append_assoc]
          exact .returnFeed hbefore hrest
        · rw [dropReturn_of_getLast? hreturn]
          exact .feed hline hreturn hrest
      · cases text with
        | nil => exact .nil
        | cons c rest =>
            rw [lines_of_not_mem (List.cons_ne_nil c rest) hfeed]
            exact .last (List.cons_ne_nil c rest) hfeed

/-! ### Words -/

/-- Characters of words are ASCII. -/
theorem toNat_lt_of_isWordChar {c : Char} (h : isWordChar c) : c.toNat < 128 := by
  delta isWordChar Char.isAlphanum Char.isAlpha Char.isUpper Char.isLower Char.isDigit at h
  simp only [Bool.or_eq_true, Bool.and_eq_true, decide_eq_true_eq, beq_iff_eq] at h
  rcases h with (((h | h) | h) | rfl)
  · exact Nat.lt_of_le_of_lt (UInt32.le_iff_toNat_le.1 h.2) (by decide)
  · exact Nat.lt_of_le_of_lt (UInt32.le_iff_toNat_le.1 h.2) (by decide)
  · exact Nat.lt_of_le_of_lt (UInt32.le_iff_toNat_le.1 h.2) (by decide)
  · decide

/-- No blank character continues a word. -/
theorem isBlank_of_isWordChar {c : Char} (h : isWordChar c) : isBlank c = false := by
  have hall : ∀ n < 128, isWordChar (Char.ofNat n) → isBlank (Char.ofNat n) = false := by
    decide +kernel
  have hc := hall c.toNat (toNat_lt_of_isWordChar h)
  rw [Char.ofNat_toNat] at hc
  exact hc h

/-! ### Fields -/

/-- The fields of a text: its maximal runs of characters that are not blank. A field begins behind
blank characters only and ends at a blank character or with the text. -/
inductive Fields : List Char → List (List Char) → Prop
  | nil {gap : List Char} (hgap : ∀ c ∈ gap, isBlank c) : Fields gap []
  | cons {gap field rest : List Char} {fields : List (List Char)} (hgap : ∀ c ∈ gap, isBlank c)
      (hne : field ≠ []) (hfield : ∀ c ∈ field, isBlank c = false)
      (hstop : ∀ c ∈ rest.head?, isBlank c) (hrest : Fields rest fields) :
      Fields (gap ++ (field ++ rest)) (field :: fields)

/-- Blank characters in front belong to no field. -/
theorem fields_append_of_isBlank {gap : List Char} (hgap : ∀ c ∈ gap, isBlank c)
    (text : List Char) : fields (gap ++ text) = fields text := by
  induction gap with
  | nil => rfl
  | cons c rest ih =>
      rw [List.cons_append, fields_cons_of_isBlank (hgap c List.mem_cons_self)]
      exact ih fun d hd => hgap d (List.mem_cons_of_mem _ hd)

/-- A run that is not blank, up to a blank character or to the end, is a field. -/
theorem fields_append_of_not_isBlank (hne : field ≠ [])
    (hfield : ∀ c ∈ field, isBlank c = false) {rest : List Char}
    (hstop : ∀ c ∈ rest.head?, isBlank c) : fields (field ++ rest) = field :: fields rest := by
  cases rest with
  | nil =>
      rw [List.append_nil, fields_nil, fields, List.splitOnP_eq_singleton hfield]
      simp [hne]
  | cons c rest =>
      have hc : isBlank c := hstop c rfl
      rw [fields_cons_of_isBlank hc, fields,
        List.splitOnP_append_cons_of_forall_mem hfield c hc]
      simp [hne, fields]

theorem Fields.eq_fields {fields : List (List Char)} (h : Fields text fields) :
    Text.fields text = fields := by
  induction h with
  | nil hgap => simpa using fields_append_of_isBlank hgap []
  | cons hgap hne hfield hstop _ ih =>
      rw [fields_append_of_isBlank hgap, fields_append_of_not_isBlank hne hfield hstop, ih]

/-- A blank character at the end belongs to no field. -/
theorem Fields.concat_of_isBlank {fields : List (List Char)} {c : Char} (h : Fields text fields)
    (hc : isBlank c) : Fields (text ++ [c]) fields := by
  induction h with
  | nil hgap =>
      refine .nil fun d hd => ?_
      rcases List.mem_append.1 hd with hd | hd
      · exact hgap d hd
      · rwa [List.mem_singleton.1 hd]
  | @cons gap field rest fields hgap hne hfield hstop _ ih =>
      rw [List.append_assoc, List.append_assoc]
      refine .cons hgap hne hfield (fun d hd => ?_) ih
      cases rest with
      | nil =>
          cases hd
          exact hc
      | cons first more => exact hstop d hd

/-- A text that is not all blank has a first field. -/
theorem exists_first_field {text : List Char} (hblank : ¬ ∀ c ∈ text, isBlank c) :
    ∃ gap field rest, text = gap ++ (field ++ rest) ∧ (∀ c ∈ gap, isBlank c) ∧ field ≠ [] ∧
      (∀ c ∈ field, isBlank c = false) ∧ ∀ c ∈ rest.head?, isBlank c := by
  cases htail : text.dropWhile isBlank with
  | nil => exact absurd (List.dropWhile_eq_nil_iff.1 htail) hblank
  | cons first more =>
      have hfirst : isBlank first = false := by
        simpa [htail] using List.head?_dropWhile_not isBlank text
      refine ⟨text.takeWhile isBlank, (first :: more).takeWhile (!isBlank ·),
        (first :: more).dropWhile (!isBlank ·), ?_, ?_, ?_, ?_, ?_⟩
      · rw [List.takeWhile_append_dropWhile, ← htail, List.takeWhile_append_dropWhile]
      · exact fun c hc => List.all_eq_true.1 List.all_takeWhile c hc
      · simp [hfirst]
      · exact fun c hc => by simpa using List.all_eq_true.1 List.all_takeWhile c hc
      · intro c hc
        have hstop := List.head?_dropWhile_not (!isBlank ·) (first :: more)
        rw [Option.mem_def.1 hc] at hstop
        simpa using hstop

/-- Every text is read by skipping blank characters and taking what is not blank after them. -/
theorem fields_spec (text : List Char) : Fields text (fields text) := by
  induction hlength : text.length using Nat.strongRecOn generalizing text with
  | ind length ih =>
      by_cases hblank : ∀ c ∈ text, isBlank c
      · have hnone : fields text = [] := by simpa using fields_append_of_isBlank hblank []
        rw [hnone]
        exact .nil hblank
      · obtain ⟨gap, field, rest, rfl, hgap, hne, hfield, hstop⟩ := exists_first_field hblank
        have hlt : rest.length < length := by
          have hpos : 0 < field.length := List.length_pos_iff.2 hne
          simp only [List.length_append] at hlength
          omega
        rw [fields_append_of_isBlank hgap, fields_append_of_not_isBlank hne hfield hstop]
        exact .cons hgap hne hfield hstop (ih _ hlt rest rfl)

theorem fields_eq_iff {fields : List (List Char)} : Text.fields text = fields ↔ Fields text fields :=
  ⟨fun h => h ▸ fields_spec text, Fields.eq_fields⟩

end Switchboard.Text
