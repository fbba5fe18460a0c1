import Switchboard.Proofs.Mapping.Grammar

/-!
Line ends. A carriage return in front of every line feed is not quite invisible: a line that ends in a
carriage return of its own loses that one to its line end and keeps the new one instead. A line feed
behind the last line does the opposite, for it takes a carriage return away with it. So the lines of the
text are not the same, but each of them is the same up to one carriage return at its end
(`Text.UpToReturn`), and that is blank: it belongs to no field, and to no marker without carriage
returns. What is read, or blamed, is the same whether or not the lines are those of a mapping.
-/

namespace Switchboard

namespace Text

/-- A text with a carriage return in front of every line feed. -/
def withReturns (text : List Char) : List Char :=
  text.flatMap fun c => if c = '\n' then ['\r', '\n'] else [c]

/-- The lines are equal, or the second one has one more carriage return at its end. -/
inductive UpToReturn (line : List Char) : List Char → Prop
  | same : UpToReturn line line
  | more : UpToReturn line (line ++ ['\r'])

variable {text line line' : List Char}

theorem withReturns_of_not_mem (h : '\n' ∉ line) : withReturns line = line := by
  induction line with
  | nil => rfl
  | cons c rest ih =>
      obtain ⟨hc, hrest⟩ := List.ne_and_not_mem_of_not_mem_cons h
      rw [withReturns, List.flatMap_cons, if_neg hc.symm, ← withReturns, ih hrest]
      rfl

theorem withReturns_append_feed (h : '\n' ∉ line) (rest : List Char) :
    withReturns (line ++ '\n' :: rest) = line ++ '\r' :: '\n' :: withReturns rest := by
  rw [withReturns, List.flatMap_append, ← withReturns, withReturns_of_not_mem h]
  rfl

/-- Returns in front of all line feeds change the lines by a return at most. -/
theorem upToReturn_withReturns {lines : List (List Char)} (h : Lines text lines) :
    List.Forall₂ UpToReturn lines (Text.lines (withReturns text)) := by
  induction h with
  | nil => exact .nil
  | last hne hline =>
      rw [withReturns_of_not_mem hline, lines_of_not_mem hne hline]
      exact .cons .same .nil
  | feed hline _ _ ih =>
      rw [withReturns_append_feed hline, (Lines.returnFeed hline (lines_spec _)).eq_lines]
      exact .cons .same ih
  | @returnFeed line rest _ hline _ ih =>
      have hreturn : '\n' ∉ line ++ ['\r'] := by simp [hline]
      have hcut : line ++ '\r' :: '\n' :: rest = (line ++ ['\r']) ++ '\n' :: rest := by simp
      rw [hcut, withReturns_append_feed hreturn, (Lines.returnFeed hreturn (lines_spec _)).eq_lines]
      exact .cons .more ih

/-- A line feed behind a last line without one changes that line by a return at most. -/
theorem upToReturn_concat_feed {lines : List (List Char)} (h : Lines text lines) (hne : text ≠ [])
    (hlast : text.getLast? ≠ some '\n') :
    List.Forall₂ UpToReturn (Text.lines (text ++ ['\n'])) lines := by
  induction h with
  | nil => exact absurd rfl hne
  | @last line _ hline =>
      rw [lines_append_feed hline, lines_nil]
      refine .cons ?_ .nil
      by_cases hreturn : line.getLast? = some '\r'
      · obtain ⟨before, rfl⟩ := List.getLast?_eq_some_iff.1 hreturn
        rw [dropReturn_append_return]
        exact .more
      · rw [dropReturn_of_getLast? hreturn]
        exact .same
  | @feed line rest _ hline hreturn _ ih =>
      rw [List.append_assoc, List.cons_append, lines_append_feed hline, dropReturn_of_getLast? hreturn]
      cases rest with
      | nil => simp at hlast
      | cons c more => exact .cons .same (ih (List.cons_ne_nil c more) (by simpa using hlast))
  | @returnFeed line rest _ hline _ ih =>
      have hreturn : '\n' ∉ line ++ ['\r'] := by simp [hline]
      have hcut : line ++ '\r' :: '\n' :: rest ++ ['\n'] =
          (line ++ ['\r']) ++ '\n' :: (rest ++ ['\n']) := by simp
      rw [hcut, lines_append_feed hreturn, dropReturn_append_return]
      cases rest with
      | nil => simp at hlast
      | cons c more => exact .cons .same (ih (List.cons_ne_nil c more) (by simpa using hlast))

theorem UpToReturn.fields_eq (h : UpToReturn line line') : fields line' = fields line := by
  cases h with
  | same => rfl
  | more => exact ((fields_spec line).concat_of_isBlank (by decide)).eq_fields

/-- A carriage return at the end of a line completes no part that has none. -/
theorem UpToReturn.infix_iff {part : List Char} (hpart : '\r' ∉ part) (h : UpToReturn line line') :
    part <:+: line' ↔ part <:+: line := by
  cases h with
  | same => rfl
  | more =>
      rw [List.infix_concat_iff, List.suffix_concat_iff]
      constructor
      · rintro ((rfl | ⟨before, rfl, -⟩) | hinfix)
        · exact List.nil_infix
        · simp at hpart
        · exact hinfix
      · exact .inr

end Text

namespace Mapping

variable {name : String} {width : Width} {lines lines' : List (List Char)}

theorem readLine_upToReturn {line line' : List Char} (h : Text.UpToReturn line line') :
    readLine width line' = readLine width line := by
  rw [readLine, h.fields_eq, readLine]

theorem readLines_upToReturn (h : List.Forall₂ Text.UpToReturn lines lines') (number : Nat) :
    readLines name width number lines' = readLines name width number lines := by
  induction h generalizing number with
  | nil => rfl
  | cons hline _ ih => rw [readLines, readLines, readLine_upToReturn hline, ih]

theorem marked_upToReturn {marker : String} (hmarker : '\r' ∉ marker.toList)
    (h : List.Forall₂ Text.UpToReturn lines lines') : Marked marker lines' ↔ Marked marker lines := by
  cases h with
  | nil => rfl
  | cons hline _ => simp [Marked, hline.infix_iff hmarker]

/-- Texts whose lines are equal up to a carriage return at their ends are read alike, or have the same
fault. -/
theorem readEntries_upToReturn {source source' : String} {config : Config}
    (hmarker : ∀ marker, config.marker = some marker → '\r' ∉ marker.toList)
    (h : List.Forall₂ Text.UpToReturn (Text.lines source.toList) (Text.lines source'.toList)) :
    readEntries name source' config = readEntries name source config := by
  have hlines : readLines name config.width 2 (Text.lines source'.toList).tail =
      readLines name config.width 2 (Text.lines source.toList).tail :=
    readLines_upToReturn (by simpa using List.forall₂_drop 1 h) 2
  rcases markerHolds_or_not config (Text.lines source.toList) with hholds | ⟨marker, hconfig, hnot⟩
  · have hholds' : MarkerHolds config (Text.lines source'.toList) := fun marker hconfig =>
      (marked_upToReturn (hmarker marker hconfig) h).2 (hholds marker hconfig)
    rw [readEntries_of_markerHolds hholds, readEntries_of_markerHolds hholds', hlines]
  · rw [readEntries_of_not_marked hconfig hnot,
      readEntries_of_not_marked hconfig (mt (marked_upToReturn (hmarker marker hconfig) h).1 hnot)]

/-- How lines are ended does not matter. With a carriage return in front of every line feed, and with a
line feed behind a last line that has none, any text at all is read as before: the same entries or the
same fault on the same line, unless a carriage return is part of the marker. -/
theorem reading_ignores_line_ends (name source : String) (config : Config)
    (hmarker : ∀ marker, config.marker = some marker → '\r' ∉ marker.toList) :
    readEntries name (String.ofList (Text.withReturns source.toList)) config =
        readEntries name source config ∧
      (source ≠ "" → source.toList.getLast? ≠ some '\n' →
        readEntries name (source ++ "\n") config = readEntries name source config) := by
  have hlines := Text.lines_spec source.toList
  constructor
  · refine readEntries_upToReturn hmarker ?_
    rw [String.toList_ofList]
    exact Text.upToReturn_withReturns hlines
  · intro hne hlast
    refine (readEntries_upToReturn hmarker ?_).symm
    rw [String.toList_append]
    exact Text.upToReturn_concat_feed hlines (by simpa using hne) hlast

/-- A text with all sorts of line ends and one field too few on its last line. -/
def endedInAllWays : String :=
  "protocols\r\r\n6\r TCPAnalyzer\n11 UDPAnalyzer\r\nff\r"

/-- The last line is blamed in all three spellings of the text. -/
theorem reading_endedInAllWays :
    ('\r' ∉ "protocols".toList ∧ endedInAllWays ≠ "" ∧ endedInAllWays.toList.getLast? ≠ some '\n') ∧
      readEntries "ip" endedInAllWays { marker := some "protocols" } =
        .error (.line "ip" 4 (.fieldCount 1)) ∧
      readEntries "ip" (String.ofList (Text.withReturns endedInAllWays.toList))
        { marker := some "protocols" } = .error (.line "ip" 4 (.fieldCount 1)) ∧
      readEntries "ip" (endedInAllWays ++ "\n") { marker := some "protocols" } =
        .error (.line "ip" 4 (.fieldCount 1)) := by
  have hmarker : ∀ marker, some "protocols" = some marker → '\r' ∉ marker.toList := by
    rintro _ ⟨⟩
    decide
  have hne : endedInAllWays ≠ "" ∧ endedInAllWays.toList.getLast? ≠ some '\n' := by decide
  have hread : readEntries "ip" endedInAllWays { marker := some "protocols" } =
      .error (.line "ip" 4 (.fieldCount 1)) := by rfl
  obtain ⟨hreturns, hfeed⟩ :=
    reading_ignores_line_ends "ip" endedInAllWays { marker := some "protocols" } hmarker
  exact ⟨⟨by decide, hne⟩, hread, hreturns.trans hread, (hfeed hne.1 hne.2).trans hread⟩

end Mapping

end Switchboard
