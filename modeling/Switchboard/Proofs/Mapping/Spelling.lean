import Switchboard.Artifact
import Switchboard.Proofs.Identifier.Reading
import Switchboard.Proofs.Mapping.Phases

/-!
Spelling. Two lines say the same when their type names are equal and the fields in front of these denote
one number. Such lines may differ in the blank characters around and between their fields, in the
prefix and the leading zeros of the number and in the case of its letters. What is read from a text
depends on nothing but its first line and what the other lines say: from each line the reader takes the
number and the type name, and all checks look at these. How a line is ended is no part of the line.
-/

namespace Switchboard

theorem Text.isWordChar_of_matchesWord {text : List Char} (h : MatchesWord text) :
    text ≠ [] ∧ ∀ c ∈ text, isWordChar c := by
  have hword : isWord (String.ofList text) := isWord_iff_matchesWord.2 (by simpa using h)
  simpa using isWordTail_eq_true_iff.1 (isWordTail_of_isWord hword)

namespace Mapping

/-! ### Lines that say the same -/

/-- The lines have the same type name behind fields that denote one number. -/
def SaySame (line line' : List Char) : Prop :=
  ∃ field field' typeName n, Text.Fields line [field, typeName] ∧
    Text.Fields line' [field', typeName] ∧ Identifier.Denotes field n ∧
    Identifier.Denotes field' n

variable {line line' : List Char} {width : Width}

/-- A field that denotes a number and a type name are the fields of a line, with any blank characters
around them and between them. -/
theorem fields_spaced {gap field sep typeName rest : List Char} {n : Nat}
    (hfield : Identifier.Denotes field n) (hword : Text.MatchesWord typeName)
    (hgap : ∀ c ∈ gap, Text.isBlank c) (hne : sep ≠ []) (hsep : ∀ c ∈ sep, Text.isBlank c)
    (hrest : ∀ c ∈ rest, Text.isBlank c) :
    Text.Fields (gap ++ (field ++ (sep ++ (typeName ++ rest)))) [field, typeName] := by
  obtain ⟨hfirst, hdigits⟩ := hfield.isWordChar
  obtain ⟨hlast, hchars⟩ := Text.isWordChar_of_matchesWord hword
  refine .cons hgap hfirst (fun c hc => Text.isBlank_of_isWordChar (hdigits c hc)) ?_ ?_
  · intro c hc
    rw [List.head?_append_of_ne_nil _ hne] at hc
    exact hsep c (List.mem_of_head? hc)
  · refine .cons hsep hlast (fun c hc => Text.isBlank_of_isWordChar (hchars c hc)) ?_ (.nil hrest)
    exact fun c hc => hrest c (List.mem_of_head? hc)

/-- It is enough to write one space between them. -/
theorem fields_spaced_once {field typeName : List Char} {n : Nat}
    (hfield : Identifier.Denotes field n) (hword : Text.MatchesWord typeName) :
    Text.Fields (field ++ ' ' :: typeName) [field, typeName] := by
  have hspaced : Text.Fields ([] ++ (field ++ ([' '] ++ (typeName ++ [])))) [field, typeName] :=
    fields_spaced hfield hword (by simp) (by simp) (by simp [Text.isBlank]) (by simp)
  simpa using hspaced

/-- Leading zeros, letters of the other case, a prefix and other blank characters change nothing about
what a line says. -/
theorem saySame_respelled {digits digits' mark gap sep typeName rest : List Char} {n : Nat}
    (hvalue : Text.hexValue? digits = some n) (hword : Text.MatchesWord typeName) (zeros : Nat)
    (hcase : digits'.map Char.toLower = digits.map Char.toLower)
    (hmark : mark = [] ∨ mark = ['0', 'x'] ∨ mark = ['0', 'X'])
    (hgap : ∀ c ∈ gap, Text.isBlank c) (hne : sep ≠ []) (hsep : ∀ c ∈ sep, Text.isBlank c)
    (hrest : ∀ c ∈ rest, Text.isBlank c) :
    SaySame (digits ++ ' ' :: typeName)
      (gap ++ ((mark ++ (List.replicate zeros '0' ++ digits')) ++ (sep ++ (typeName ++ rest)))) := by
  have hfield : Identifier.Denotes digits n := Identifier.denotes_of_hexValue? hvalue
  have hfield' := Identifier.denotes_respelled hvalue zeros hcase hmark
  exact ⟨digits, _, typeName, n, fields_spaced_once hfield hword,
    fields_spaced hfield' hword hgap hne hsep hrest, hfield, hfield'⟩

theorem SaySame.entryLine (h : SaySame line line') {identifier : Identifier} {typeName : String}
    (hline : EntryLine width line identifier typeName) :
    EntryLine width line' identifier typeName := by
  obtain ⟨field, field', name, n, hfields, hfields', hdenotes, hdenotes'⟩ := h
  obtain ⟨found, hfound, hread, hword⟩ := hline
  have heq : [found, typeName.toList] = [field, name] := hfound.eq_fields.symm.trans hfields.eq_fields
  obtain ⟨rfl, rfl⟩ : found = field ∧ typeName.toList = name := by simpa using heq
  obtain ⟨hfound, hfits⟩ := Identifier.read_eq_ok_iff.1 hread
  rw [String.toList_ofList] at hfound
  refine ⟨field', hfields', Identifier.read_eq_ok_iff.2 ⟨?_, hfits⟩, hword⟩
  rw [String.toList_ofList, hfound.unique hdenotes]
  exact hdenotes'

theorem SaySame.readLine_eq (h : SaySame line line') (hline : IsEntryLine width line) :
    readLine width line = readLine width line' := by
  obtain ⟨identifier, typeName, hline⟩ := hline
  rw [readLine_eq_ok_iff.2 hline, readLine_eq_ok_iff.2 (h.entryLine hline)]

/-! ### Texts -/

variable {name source source' : String} {config : Config} {texts texts' : List (List Char)}

theorem readLines_congr (h : List.Forall₂ SaySame texts texts')
    (hentries : ∀ text ∈ texts, IsEntryLine width text) (number : Nat) :
    readLines name width number texts = readLines name width number texts' := by
  induction h generalizing number with
  | nil => rfl
  | cons hsame _ ih =>
      obtain ⟨hline, hrest⟩ := List.forall_mem_cons.1 hentries
      rw [readLines, readLines, hsame.readLine_eq hline]
      simp only [ih hrest]

theorem readEntries_congr
    (hfirst : (Text.lines source.toList).head? = (Text.lines source'.toList).head?)
    (hlines : readLines name config.width 2 (Text.lines source.toList).tail =
      readLines name config.width 2 (Text.lines source'.toList).tail) :
    readEntries name source config = readEntries name source' config := by
  have hmarked : ∀ marker, Marked marker (Text.lines source.toList) ↔
      Marked marker (Text.lines source'.toList) := by
    intro marker
    rw [Marked, Marked, hfirst]
  rcases markerHolds_or_not config (Text.lines source.toList) with hholds | ⟨marker, hmarker, hnot⟩
  · have hholds' : MarkerHolds config (Text.lines source'.toList) := fun marker hmarker =>
      (hmarked marker).1 (hholds marker hmarker)
    rw [readEntries_of_markerHolds hholds, readEntries_of_markerHolds hholds', hlines]
  · rw [readEntries_of_not_marked hmarker hnot,
      readEntries_of_not_marked hmarker (mt (hmarked marker).2 hnot)]

/-- The faults of a mapping whose lines are all entry lines. -/
inductive CheckFault (name : String) (config : Config) : Fault → Prop
  | mappingName : CheckFault name config (.mappingName name)
  | marker {marker : String} (hmarker : config.marker = some marker) :
      CheckFault name config (.line name 1 (.missingMarker marker))
  | identifier (identifier : Identifier) (line firstLine : Nat) :
      CheckFault name config (.duplicateIdentifier name identifier line firstLine)
  | slotName (slotName : String) (line firstLine : Nat) :
      CheckFault name config (.slotCollision name slotName line firstLine)
  | reserved (slotName : String) (line : Nat) :
      CheckFault name config (.reservedSlot name slotName line)

theorem checkFault_of_ofSource
    (hentries : ∀ text ∈ (Text.lines source.toList).tail, IsEntryLine config.width text)
    {fault : Fault} (h : ofSource name source config = .error fault) :
    CheckFault name config fault := by
  cases phaseFault_of_ofSource h with
  | name _ => exact .mappingName
  | text _ hread =>
      rcases readEntries_eq_error_iff.1 hread with ⟨marker, hmarker, -, rfl⟩ | ⟨-, hlines⟩
      · exact .marker hmarker
      · obtain ⟨entries, hread⟩ : ∃ entries,
            readLines name config.width 2 (Text.lines source.toList).tail = .ok entries :=
          exists_readLines hentries
        rw [hread] at hlines
        cases hlines
  | identifiers => exact .identifier _ _ _
  | reserved => exact .reserved _ _
  | slotNames => exact .slotName _ _ _

/-- Two texts with the same first line are read alike if all other lines of one are entry lines and
each of them says the same as the line with its number in the other. Either both texts give one
mapping, and with it one artifact or one fault for each strategy, or both give one fault, which is not
about the spelling of any line. -/
theorem reading_ignores_spelling (name source source' : String) (config : Config)
    (lines lines' : List (List Char)) (hlines : Text.Lines source.toList lines)
    (hlines' : Text.Lines source'.toList lines') (hfirst : lines.head? = lines'.head?)
    (hentries : ∀ text ∈ lines.tail, IsEntryLine config.width text)
    (hsame : List.Forall₂ SaySame lines.tail lines'.tail) :
    ofSource name source config = ofSource name source' config ∧
      (∀ strategy, (ofSource name source config).bind (Artifact.emit · strategy config) =
        (ofSource name source' config).bind (Artifact.emit · strategy config)) ∧
      ∀ fault, ofSource name source config = .error fault → CheckFault name config fault := by
  obtain rfl := hlines.eq_lines
  obtain rfl := hlines'.eq_lines
  have hread : readEntries name source config = readEntries name source' config :=
    readEntries_congr hfirst (readLines_congr hsame hentries 2)
  have heq : ofSource name source config = ofSource name source' config := by
    rw [ofSource, ofSource, hread]
  exact ⟨heq, fun strategy => by rw [heq], fun fault => checkFault_of_ofSource hentries⟩

/-- Two entries, with as few characters as possible. -/
def tersely : String :=
  "protocols\n6 TCPAnalyzer\n1f UDPAnalyzer\n"

/-- The same entries behind carriage returns, ideographic and no-break spaces, tabs, zeros, prefixes and
upper case digits, without a line feed at the end. -/
def lavishly : String :=
  "protocols\r\n\u3000 0X0006\u00a0TCPAnalyzer\t\r\n  001F \u2028UDPAnalyzer"

/-- Both texts are read alike, and every strategy makes one artifact of them. -/
theorem reading_lavishly :
    ofSource "ip" tersely {} = ofSource "ip" lavishly {} ∧
      ∀ strategy, (ofSource "ip" tersely {}).bind (Artifact.emit · strategy {}) =
        (ofSource "ip" lavishly {}).bind (Artifact.emit · strategy {}) := by
  have htcp : Text.MatchesWord "TCPAnalyzer".toList := Text.isWord_iff_matchesWord.1 (by decide)
  have hudp : Text.MatchesWord "UDPAnalyzer".toList := Text.isWord_iff_matchesWord.1 (by decide)
  have hfirst : SaySame (['6'] ++ ' ' :: "TCPAnalyzer".toList)
      (['\u3000', ' '] ++ ((['0', 'X'] ++ (List.replicate 3 '0' ++ ['6'])) ++
        (['\u00a0'] ++ ("TCPAnalyzer".toList ++ ['\t'])))) :=
    saySame_respelled (show Text.hexValue? ['6'] = some 6 from rfl) htcp 3 rfl (by simp)
      (by simp [Text.isBlank]) (by simp) (by simp [Text.isBlank]) (by simp [Text.isBlank])
  have hsecond : SaySame (['1', 'f'] ++ ' ' :: "UDPAnalyzer".toList)
      ([' ', ' '] ++ (([] ++ (List.replicate 2 '0' ++ ['1', 'F'])) ++
        ([' ', '\u2028'] ++ ("UDPAnalyzer".toList ++ [])))) :=
    saySame_respelled (show Text.hexValue? ['1', 'f'] = some 0x1f from rfl) hudp 2 (by decide) (by simp)
      (by simp [Text.isBlank]) (by simp) (by simp [Text.isBlank]) (by simp)
  have hread : readLines "ip" .u16 2 (Text.lines tersely.toList).tail =
      .ok [⟨6, "TCPAnalyzer", 2⟩, ⟨0x1f, "UDPAnalyzer", 3⟩] := by rfl
  have hentries := isEntryLine_of_readLines hread
  obtain ⟨hsource, hemit, -⟩ := reading_ignores_spelling "ip" tersely lavishly {} _ _
    (Text.lines_spec _) (Text.lines_spec _) (by decide) hentries
    (.cons hfirst (.cons hsecond .nil))
  exact ⟨hsource, hemit⟩

end Mapping

end Switchboard
