import Switchboard.Proofs.Mapping.Names
import Switchboard.Proofs.Text.Pieces

/-!
The grammar of mapping texts. A text is in the grammar when its first line passes for the marker and
every line behind it is an entry line, two fields that spell an identifier and a handler type. The
reader accepts exactly these texts. Of a text outside the grammar it blames the marker if that is at
fault, and otherwise the first line that is not an entry line, for the first thing that is wrong
with that line: no field, a wrong number of them, the identifier, the handler type.

What a line has to look like is said through its fields (`Text.Fields`) and the characters of a
handler type, and not through the reader. Entry lines and bad lines are each other's complement
because each of them is what the reader makes of a line (`readLine_eq_ok_iff`, `badLine_of_readLine`,
`BadLine.readLine_eq`), and the reader always makes something of it.
-/

namespace Switchboard

namespace Text

def IsLetter (c : Char) : Prop :=
  ('A' ≤ c ∧ c ≤ 'Z') ∨ ('a' ≤ c ∧ c ≤ 'z')

/-- The texts `[A-Za-z_][A-Za-z0-9_]*`. -/
def MatchesWord (text : List Char) : Prop :=
  ∃ first rest, text = first :: rest ∧ (IsLetter first ∨ first = '_') ∧
    ∀ c ∈ rest, IsLetter c ∨ ('0' ≤ c ∧ c ≤ '9') ∨ c = '_'

theorem isAlpha_iff_isLetter {c : Char} : c.isAlpha ↔ IsLetter c := by
  delta Char.isAlpha Char.isUpper Char.isLower
  simp only [IsLetter, Char.le_def, Bool.or_eq_true, Bool.and_eq_true, decide_eq_true_eq, ge_iff_le]

theorem isDigit_iff {c : Char} : c.isDigit ↔ '0' ≤ c ∧ c ≤ '9' := by
  simp only [Char.isDigit, Char.le_def, Bool.and_eq_true, decide_eq_true_eq, ge_iff_le]

theorem isWord_iff_matchesWord {text : String} : isWord text ↔ MatchesWord text.toList := by
  unfold isWord MatchesWord
  cases text.toList with
  | nil => simp
  | cons first rest =>
      simp only [Bool.and_eq_true, Bool.or_eq_true, beq_iff_eq, isAlpha_iff_isLetter,
        List.all_eq_true, isWordChar, Char.isAlphanum, isDigit_iff, or_assoc]
      constructor
      · exact fun h => ⟨first, rest, rfl, h⟩
      · rintro ⟨_, _, heq, h⟩
        cases heq
        exact h

end Text

namespace Mapping

variable {width : Width} {text : List Char}

/-! ### Lines -/

/-- A line with exactly two fields, the first of which denotes the identifier within the width and
the second of which is the handler type, unchanged. -/
def EntryLine (width : Width) (text : List Char) (identifier : Identifier) (typeName : String) :
    Prop :=
  ∃ field, Text.Fields text [field, typeName.toList] ∧
    Identifier.read width (String.ofList field) = .ok identifier ∧
    Text.MatchesWord typeName.toList

/-- The lines that are not entry lines, and what is wrong with them. -/
inductive BadLine (width : Width) (text : List Char) : LineFault → Prop
  | empty (hfields : Text.Fields text []) : BadLine width text .empty
  | fieldCount {fields : List (List Char)} (hfields : Text.Fields text fields)
      (hsome : fields ≠ []) (hcount : fields.length ≠ 2) :
      BadLine width text (.fieldCount fields.length)
  | identifier {field name : List Char} {fault : Identifier.FieldFault}
      (hfields : Text.Fields text [field, name])
      (hread : Identifier.read width (String.ofList field) = .error fault) :
      BadLine width text (.identifier fault)
  | handlerName {field name : List Char} {identifier : Identifier}
      (hfields : Text.Fields text [field, name])
      (hread : Identifier.read width (String.ofList field) = .ok identifier)
      (hname : ¬ Text.MatchesWord name) :
      BadLine width text (.handlerName (String.ofList name))

theorem readLine_eq_ok_iff {identifier : Identifier} {typeName : String} :
    readLine width text = .ok (identifier, typeName) ↔ EntryLine width text identifier typeName := by
  constructor
  · intro h
    obtain ⟨field, hfields, hread, hword⟩ := readLine_eq_ok h
    exact ⟨field, Text.fields_eq_iff.1 hfields, hread, Text.isWord_iff_matchesWord.1 hword⟩
  · rintro ⟨field, hfields, hread, hname⟩
    have hword : Text.isWord typeName := Text.isWord_iff_matchesWord.2 hname
    rw [readLine, hfields.eq_fields]
    simp only [hread, String.ofList_toList, hword, if_true]

theorem BadLine.readLine_eq {fault : LineFault} (h : BadLine width text fault) :
    readLine width text = .error fault := by
  cases h with
  | empty hfields => rw [readLine, hfields.eq_fields]
  | fieldCount hfields hsome hcount =>
      rw [readLine, hfields.eq_fields]
      split
      · exact absurd rfl hsome
      · exact absurd rfl hcount
      · rfl
  | identifier hfields hread =>
      rw [readLine, hfields.eq_fields]
      simp only [hread]
  | @handlerName _ name _ hfields hread hname =>
      have hword : ¬ Text.isWord (String.ofList name) := fun h =>
        hname (by simpa using Text.isWord_iff_matchesWord.1 h)
      rw [readLine, hfields.eq_fields]
      simp only [hread, hword, if_false, Bool.false_eq_true]

theorem badLine_of_readLine {fault : LineFault} (h : readLine width text = .error fault) :
    BadLine width text fault := by
  have hfields := Text.fields_spec text
  unfold readLine at h
  split at h
  · next heq =>
    cases h
    exact .empty (heq ▸ hfields)
  · next field name heq =>
    rw [heq] at hfields
    split at h
    · next hread =>
      cases h
      exact .identifier hfields hread
    · next hread =>
      split at h
      · cases h
      · next hword =>
        cases h
        refine .handlerName hfields hread fun hname => hword ?_
        exact Text.isWord_iff_matchesWord.2 (by simpa using hname)
  · next hnil hpair =>
    cases h
    refine .fieldCount hfields (fun heq => hnil heq) fun hcount => ?_
    obtain ⟨field, name, heq⟩ := List.length_eq_two.1 hcount
    exact hpair field name heq

/-! ### All lines

The reader numbers the lines as it goes, so both lemmas are about lines that begin at any number. -/

def IsEntryLine (width : Width) (text : List Char) : Prop :=
  ∃ identifier typeName, EntryLine width text identifier typeName

variable {mapping : String} {line : Nat} {texts : List (List Char)}

theorem readLines_eq_ok {entries : List Entry}
    (h : readLines mapping width line texts = .ok entries) :
    entries.length = texts.length ∧ ∀ i entry, entries[i]? = some entry →
      entry.line = line + i ∧
        ∃ text, texts[i]? = some text ∧ EntryLine width text entry.identifier entry.typeName := by
  induction texts generalizing line entries with
  | nil =>
      cases h
      exact ⟨rfl, fun i entry hentry => by cases hentry⟩
  | cons text rest ih =>
      rw [readLines] at h
      split at h
      · cases h
      · next identifier typeName hline =>
        obtain ⟨others, hrest, rfl⟩ := Except.map_eq_ok_iff.1 h
        obtain ⟨hlength, hothers⟩ := ih hrest
        refine ⟨by simp [hlength], fun i entry hentry => ?_⟩
        cases i with
        | zero =>
            cases hentry
            exact ⟨rfl, text, rfl, readLine_eq_ok_iff.1 hline⟩
        | succ i =>
            obtain ⟨hnumber, found, hfound, hentryLine⟩ := hothers i entry hentry
            exact ⟨by omega, found, hfound, hentryLine⟩

theorem isEntryLine_of_readLines {entries : List Entry}
    (h : readLines mapping width line texts = .ok entries) :
    ∀ text ∈ texts, IsEntryLine width text := by
  intro text htext
  obtain ⟨hlength, hentries⟩ := readLines_eq_ok h
  obtain ⟨i, hi, rfl⟩ := List.getElem_of_mem htext
  obtain ⟨-, found, hfound, hline⟩ := hentries i entries[i] (List.getElem?_eq_getElem (by omega))
  rw [List.getElem?_eq_getElem hi] at hfound
  exact Option.some.inj hfound ▸ ⟨_, _, hline⟩

theorem exists_readLines (h : ∀ text ∈ texts, IsEntryLine width text) :
    ∃ entries, readLines mapping width line texts = .ok entries := by
  induction texts generalizing line with
  | nil => exact ⟨[], rfl⟩
  | cons text rest ih =>
      obtain ⟨identifier, typeName, hline⟩ := h text List.mem_cons_self
      obtain ⟨others, hothers⟩ := @ih (line + 1) fun found hfound =>
        h found (List.mem_cons_of_mem _ hfound)
      exact ⟨⟨identifier, typeName, line⟩ :: others, by
        rw [readLines, readLine_eq_ok_iff.2 hline]
        exact Except.map_eq_ok_iff.2 ⟨others, hothers, rfl⟩⟩

/-- The first line that is not an entry line is the one blamed. -/
theorem readLines_eq_error {fault : Fault}
    (h : readLines mapping width line texts = .error fault) :
    ∃ good bad rest lineFault, texts = good ++ bad :: rest ∧
      (∀ text ∈ good, IsEntryLine width text) ∧ BadLine width bad lineFault ∧
      fault = .line mapping (line + good.length) lineFault := by
  induction texts generalizing line with
  | nil => cases h
  | cons text rest ih =>
      rw [readLines] at h
      split at h
      · next lineFault hline =>
        cases h
        exact ⟨[], text, rest, lineFault, rfl, by simp, badLine_of_readLine hline, rfl⟩
      · next identifier typeName hline =>
        obtain ⟨good, bad, others, lineFault, rfl, hgood, hbad, rfl⟩ :=
          ih (Except.map_eq_error_iff.1 h)
        refine ⟨text :: good, bad, others, lineFault, rfl, ?_, hbad, ?_⟩
        · intro found hfound
          rcases List.mem_cons.1 hfound with rfl | hfound
          · exact ⟨identifier, typeName, readLine_eq_ok_iff.1 hline⟩
          · exact hgood found hfound
        · rw [List.length_cons, Nat.add_assoc, Nat.add_comm 1]

theorem readLines_append_bad {good rest : List (List Char)} {bad : List Char}
    {lineFault : LineFault} (hgood : ∀ text ∈ good, IsEntryLine width text)
    (hbad : BadLine width bad lineFault) :
    readLines mapping width line (good ++ bad :: rest) =
      .error (.line mapping (line + good.length) lineFault) := by
  induction good generalizing line with
  | nil => simp [readLines, hbad.readLine_eq]
  | cons text good ih =>
      obtain ⟨identifier, typeName, hline⟩ := hgood text List.mem_cons_self
      rw [List.cons_append, readLines, readLine_eq_ok_iff.2 hline]
      simp only
      rw [ih fun found hfound => hgood found (List.mem_cons_of_mem _ hfound), List.length_cons,
        Nat.add_assoc, Nat.add_comm 1]
      rfl

/-! ### Texts -/

/-- Whether the first of the lines contains the marker. -/
def Marked (marker : String) (lines : List (List Char)) : Prop :=
  ∃ first ∈ lines.head?, marker.toList <:+: first

theorem hasMarker_iff {marker : String} {lines : List (List Char)} :
    hasMarker marker lines ↔ Marked marker lines := by
  cases lines with
  | nil => simp [hasMarker, Marked]
  | cons first rest => simp [hasMarker, Marked, occursIn_iff]

/-- Whether the lines pass for those of a mapping as far as the marker goes. -/
def MarkerHolds (config : Config) (lines : List (List Char)) : Prop :=
  ∀ marker, config.marker = some marker → Marked marker lines

variable {source : String} {config : Config}

theorem readEntries_of_markerHolds (h : MarkerHolds config (Text.lines source.toList)) :
    readEntries mapping source config =
      readLines mapping config.width 2 (Text.lines source.toList).tail := by
  unfold readEntries
  cases hmarker : config.marker with
  | none => rfl
  | some marker => simp [hasMarker_iff.2 (h marker hmarker)]

theorem readEntries_of_not_marked {marker : String} (hmarker : config.marker = some marker)
    (h : ¬ Marked marker (Text.lines source.toList)) :
    readEntries mapping source config = .error (.line mapping 1 (.missingMarker marker)) := by
  unfold readEntries
  simp [hmarker, mt hasMarker_iff.1 h]

theorem markerHolds_or_not (config : Config) (lines : List (List Char)) :
    MarkerHolds config lines ∨ ∃ marker, config.marker = some marker ∧ ¬ Marked marker lines := by
  cases hmarker : config.marker with
  | none => exact .inl fun marker h => by rw [hmarker] at h; cases h
  | some marker =>
      by_cases h : Marked marker lines
      · refine .inl fun found hfound => ?_
        rw [hmarker] at hfound
        exact Option.some.inj hfound ▸ h
      · exact .inr ⟨marker, rfl, h⟩

theorem readEntries_eq_ok_iff {entries : List Entry} :
    readEntries mapping source config = .ok entries ↔
      MarkerHolds config (Text.lines source.toList) ∧
        readLines mapping config.width 2 (Text.lines source.toList).tail = .ok entries := by
  rcases markerHolds_or_not config (Text.lines source.toList) with hmarked | ⟨marker, hmarker, hnot⟩
  · rw [readEntries_of_markerHolds hmarked]
    exact ⟨fun h => ⟨hmarked, h⟩, fun h => h.2⟩
  · rw [readEntries_of_not_marked hmarker hnot]
    exact ⟨fun h => (by cases h), fun h => absurd (h.1 marker hmarker) hnot⟩

theorem readEntries_eq_error_iff {fault : Fault} :
    readEntries mapping source config = .error fault ↔
      (∃ marker, config.marker = some marker ∧ ¬ Marked marker (Text.lines source.toList) ∧
        fault = .line mapping 1 (.missingMarker marker)) ∨
      (MarkerHolds config (Text.lines source.toList) ∧
        readLines mapping config.width 2 (Text.lines source.toList).tail = .error fault) := by
  rcases markerHolds_or_not config (Text.lines source.toList) with hmarked | ⟨marker, hmarker, hnot⟩
  · rw [readEntries_of_markerHolds hmarked]
    refine ⟨fun h => .inr ⟨hmarked, h⟩, ?_⟩
    rintro (⟨marker, hmarker, hnot, -⟩ | ⟨-, h⟩)
    · exact absurd (hmarked marker hmarker) hnot
    · exact h
  · rw [readEntries_of_not_marked hmarker hnot]
    constructor
    · intro h
      cases h
      exact .inl ⟨marker, hmarker, hnot, rfl⟩
    · rintro (⟨found, hfound, -, rfl⟩ | ⟨hmarked, -⟩)
      · obtain rfl : marker = found := Option.some.inj (hmarker.symm.trans hfound)
        rfl
      · exact absurd (hmarked marker hmarker) hnot

/-- A text has its lines in one way only. The reader accepts exactly the grammar, takes the entries
from the lines in order, and blames the marker or else the first line that is not an entry line. Lines
are counted from 1, so the entry at position `i` comes from line `i + 2`, and the line behind `good`
entry lines has number `good.length + 2`. -/
theorem readEntries_accepts_grammar (mapping source : String) (config : Config) :
    ∃ lines, Text.Lines source.toList lines ∧
      (∀ other, Text.Lines source.toList other → other = lines) ∧
      ((∃ entries, readEntries mapping source config = .ok entries) ↔
        MarkerHolds config lines ∧ ∀ text ∈ lines.tail, IsEntryLine config.width text) ∧
      (∀ entries, readEntries mapping source config = .ok entries →
        entries.length = lines.tail.length ∧ ∀ i entry, entries[i]? = some entry →
          entry.line = i + 2 ∧ ∃ text, lines[i + 1]? = some text ∧
            EntryLine config.width text entry.identifier entry.typeName) ∧
      ∀ fault, readEntries mapping source config = .error fault ↔
        (∃ marker, config.marker = some marker ∧ ¬ Marked marker lines ∧
          fault = .line mapping 1 (.missingMarker marker)) ∨
        (MarkerHolds config lines ∧ ∃ good bad rest lineFault,
          lines.tail = good ++ bad :: rest ∧ (∀ text ∈ good, IsEntryLine config.width text) ∧
            BadLine config.width bad lineFault ∧
            fault = .line mapping (good.length + 2) lineFault) := by
  refine ⟨Text.lines source.toList, Text.lines_spec _, fun other hother => hother.eq_lines.symm,
    ?_, ?_, fun fault => ?_⟩
  · constructor
    · rintro ⟨entries, hread⟩
      obtain ⟨hmarked, hlines⟩ := readEntries_eq_ok_iff.1 hread
      exact ⟨hmarked, isEntryLine_of_readLines hlines⟩
    · rintro ⟨hmarked, hlines⟩
      obtain ⟨entries, hread⟩ := exists_readLines hlines
      exact ⟨entries, readEntries_eq_ok_iff.2 ⟨hmarked, hread⟩⟩
  · intro entries hread
    obtain ⟨hlength, hentries⟩ := readLines_eq_ok (readEntries_eq_ok_iff.1 hread).2
    refine ⟨hlength, fun i entry hentry => ?_⟩
    obtain ⟨hnumber, text, htext, hline⟩ := hentries i entry hentry
    exact ⟨by omega, text, by rw [← htext, List.getElem?_tail], hline⟩
  · rw [readEntries_eq_error_iff]
    refine or_congr Iff.rfl (and_congr_right fun _ => ?_)
    constructor
    · intro hread
      obtain ⟨good, bad, rest, lineFault, hsplit, hgood, hbad, rfl⟩ := readLines_eq_error hread
      exact ⟨good, bad, rest, lineFault, hsplit, hgood, hbad, by rw [Nat.add_comm]⟩
    · rintro ⟨good, bad, rest, lineFault, hsplit, hgood, hbad, rfl⟩
      rw [hsplit, readLines_append_bad hgood hbad, Nat.add_comm]

/-- Lines with mixed ends, of which the third and the fourth are both bad. -/
def twoBadLines : String :=
  "protocols\r\n 0x6\tTCPAnalyzer\n\r\n1 2 3"

/-- The line blamed is the third, the first line that is not an entry line. -/
theorem readEntries_twoBadLines :
    readEntries "ip" twoBadLines {} = .error (.line "ip" 3 .empty) ∧
      ∃ lines good bad rest, Text.Lines twoBadLines.toList lines ∧
        lines.tail = good ++ bad :: rest ∧ good.length = 1 ∧
        (∀ text ∈ good, IsEntryLine .u16 text) ∧ BadLine .u16 bad .empty := by
  have hread : readEntries "ip" twoBadLines {} = .error (.line "ip" 3 .empty) := by rfl
  obtain ⟨lines, hlines, -, -, -, hfault⟩ := readEntries_accepts_grammar "ip" twoBadLines {}
  obtain ⟨marker, hmarker, -⟩ | ⟨-, good, bad, rest, lineFault, hsplit, hgood, hbad, heq⟩ :=
    (hfault _).1 hread
  · cases hmarker
  · rw [Fault.line.injEq] at heq
    obtain ⟨-, hline, rfl⟩ := heq
    exact ⟨hread, lines, good, bad, rest, hlines, hsplit, by omega, hgood, hbad⟩

end Mapping

end Switchboard
