import Switchboard.Proofs.Mapping.Spelling

/-!
Printed mappings. Pairs of an identifier and a type name are printed behind a first line, one row for
each pair: the digits of the identifier, a space, the type name. The reader finds in such a text the
pairs it was printed from, and they stand on the lines 2, 3 and so on. Since every mapping that is read
from any text can be printed this way, the printed texts are a normal form of all texts of mappings.

Reading undoes printing on each level. No character of a row ends a line, so the lines of the text are
the rows. No character of the two parts of a row is blank, so the fields of a row are its parts. And
since an `x` is no digit, none of the digits of an identifier is taken for a prefix.
-/

namespace Switchboard

/-! ### Rows -/

namespace Mapping

/-- An identifier and the type of its handler, as they stand on a printed line. -/
def row (identifier : Identifier) (typeName : String) : String :=
  identifier.hex ++ " " ++ typeName

variable {identifier : Identifier} {typeName : String} {width : Width}

theorem toList_row : (row identifier typeName).toList =
    identifier.hex.toList ++ ' ' :: typeName.toList := by
  simp [row]

theorem fields_row (hword : Text.MatchesWord typeName.toList) :
    Text.Fields (row identifier typeName).toList [identifier.hex.toList, typeName.toList] := by
  rw [toList_row]
  exact fields_spaced_once identifier.denotes_hex hword

/-- A printed row is an entry line for what is printed on it. -/
theorem entryLine_row (hfits : width.contains identifier.toNat)
    (hword : Text.MatchesWord typeName.toList) :
    EntryLine width (row identifier typeName).toList identifier typeName := by
  refine ⟨identifier.hex.toList, fields_row hword, ?_, hword⟩
  rw [Identifier.read_eq_ok_iff, String.toList_ofList]
  exact ⟨identifier.denotes_hex, hfits⟩

theorem ne_of_mem_row (hword : Text.MatchesWord typeName.toList) {c : Char}
    (hc : c ∈ (row identifier typeName).toList) : c ≠ '\n' ∧ c ≠ '\r' := by
  have hchar : Text.isWordChar c ∨ c = ' ' := by
    rw [toList_row, List.mem_append, List.mem_cons] at hc
    rcases hc with hc | rfl | hc
    · exact .inl (identifier.denotes_hex.isWordChar.2 c hc)
    · exact .inr rfl
    · exact .inl ((Text.isWordChar_of_matchesWord hword).2 c hc)
  constructor <;> rintro rfl <;> revert hchar <;> decide

/-! ### Texts -/

/-- The rows of the pairs, each of them ended by a line feed. -/
def rows : List (Identifier × String) → String
  | [] => ""
  | (identifier, typeName) :: rest => row identifier typeName ++ "\n" ++ rows rest

/-- A mapping text with the given first line that says the pairs. -/
def print (first : String) (pairs : List (Identifier × String)) : String :=
  first ++ "\n" ++ rows pairs

/-- The pairs that a mapping is printed from. -/
def rowPairs (mapping : Mapping) : List (Identifier × String) :=
  mapping.entries.map fun e => (e.identifier, e.typeName)

/-- The entries that pairs stand for when they begin on the given line. -/
def numbered (line : Nat) (pairs : List (Identifier × String)) : List Entry :=
  pairs.mapIdx fun i pair => ⟨pair.1, pair.2, i + line⟩

/-- A line that passes for the marker line and ends before the line feed behind it. -/
structure IsFirstLine (config : Config) (first : String) : Prop where
  unbroken : '\n' ∉ first.toList
  unreturned : first.toList.getLast? ≠ some '\r'
  marked : ∀ marker, config.marker = some marker → marker.toList <:+: first.toList

/-- The pairs that a mapping can have under a configuration. -/
structure Printable (config : Config) (pairs : List (Identifier × String)) : Prop where
  fits : ∀ pair ∈ pairs, config.width.contains pair.1.toNat
  words : ∀ pair ∈ pairs, Text.MatchesWord pair.2.toList
  nodup_identifiers : (pairs.map (·.1)).Nodup
  nodup_slotNames : (pairs.map fun pair => SlotName.of pair.2 pair.1).Nodup
  unreserved : ∀ pair ∈ pairs, (SlotName.of pair.2 pair.1).text ∉ SlotName.reservedWords

variable {name source first : String} {config : Config} {mapping : Mapping}
  {pairs : List (Identifier × String)}

theorem numbered_cons (line : Nat) (pair : Identifier × String) :
    numbered line (pair :: pairs) = ⟨pair.1, pair.2, line⟩ :: numbered (line + 1) pairs := by
  simp [numbered, List.mapIdx_cons, Nat.add_assoc, Nat.add_comm 1]

theorem map_numbered {α : Type} (f : Identifier → String → α) (line : Nat) :
    (numbered line pairs).map (fun e => f e.identifier e.typeName) =
      pairs.map fun pair => f pair.1 pair.2 := by
  induction pairs generalizing line with
  | nil => rfl
  | cons pair rest ih => rw [numbered_cons, List.map_cons, List.map_cons, ih]

theorem lines_rows (hwords : ∀ pair ∈ pairs, Text.MatchesWord pair.2.toList) :
    Text.lines (rows pairs).toList = pairs.map fun pair => (row pair.1 pair.2).toList := by
  induction pairs with
  | nil => rfl
  | cons pair rest ih =>
      obtain ⟨hword, hrest⟩ := List.forall_mem_cons.1 hwords
      have hline : '\n' ∉ (row pair.1 pair.2).toList := fun h => (ne_of_mem_row hword h).1 rfl
      have hreturn : (row pair.1 pair.2).toList.getLast? ≠ some '\r' := fun h =>
        (ne_of_mem_row hword (List.mem_of_getLast? h)).2 rfl
      have htext : (rows (pair :: rest)).toList =
          (row pair.1 pair.2).toList ++ '\n' :: (rows rest).toList := by
        simp [rows]
      rw [htext, Text.lines_append_feed hline, Text.dropReturn_of_getLast? hreturn, ih hrest,
        List.map_cons]

theorem lines_print (hfirst : IsFirstLine config first)
    (hwords : ∀ pair ∈ pairs, Text.MatchesWord pair.2.toList) :
    Text.lines (print first pairs).toList =
      first.toList :: pairs.map fun pair => (row pair.1 pair.2).toList := by
  have htext : (print first pairs).toList = first.toList ++ '\n' :: (rows pairs).toList := by
    simp [print]
  rw [htext, Text.lines_append_feed hfirst.unbroken,
    Text.dropReturn_of_getLast? hfirst.unreturned, lines_rows hwords]

theorem readLines_rows (line : Nat) (hfits : ∀ pair ∈ pairs, width.contains pair.1.toNat)
    (hwords : ∀ pair ∈ pairs, Text.MatchesWord pair.2.toList) :
    readLines name width line (pairs.map fun pair => (row pair.1 pair.2).toList) =
      .ok (numbered line pairs) := by
  induction pairs generalizing line with
  | nil => rfl
  | cons pair rest ih =>
      obtain ⟨hfit, hfits⟩ := List.forall_mem_cons.1 hfits
      obtain ⟨hword, hwords⟩ := List.forall_mem_cons.1 hwords
      have hline : readLine width (row pair.1 pair.2).toList = .ok (pair.1, pair.2) :=
        readLine_eq_ok_iff.2 (entryLine_row hfit hword)
      rw [List.map_cons, readLines, hline, numbered_cons]
      exact Except.map_eq_ok_iff.2 ⟨_, ih (line + 1) hfits hwords, rfl⟩

/-- A text whose lines are those of the printed pairs says these pairs. -/
theorem readEntries_of_lines (hfirst : IsFirstLine config first) (hpairs : Printable config pairs)
    (hlines : Text.lines source.toList = Text.lines (print first pairs).toList) :
    readEntries name source config = .ok (numbered 2 pairs) := by
  rw [readEntries_eq_ok_iff, hlines, lines_print hfirst hpairs.words]
  refine ⟨fun marker hmarker => ⟨first.toList, rfl, hfirst.marked marker hmarker⟩, ?_⟩
  exact readLines_rows 2 hpairs.fits hpairs.words

theorem rows_concat (pair : Identifier × String) :
    rows (pairs ++ [pair]) = rows pairs ++ row pair.1 pair.2 ++ "\n" := by
  induction pairs with
  | nil => simp [rows]
  | cons head rest ih => simp only [List.cons_append, rows, ih, String.append_assoc]

/-- Behind a row, the line feed at the end of the text can be left out. -/
theorem lines_of_concat_feed (hwords : ∀ pair ∈ pairs, Text.MatchesWord pair.2.toList)
    (hne : pairs ≠ []) (htext : source ++ "\n" = print first pairs) :
    Text.lines source.toList = Text.lines (print first pairs).toList := by
  obtain ⟨init, last, rfl⟩ := (List.eq_nil_or_concat' pairs).resolve_left hne
  have hword : Text.MatchesWord last.2.toList := hwords last (by simp)
  have hsource : source = first ++ "\n" ++ rows init ++ row last.1 last.2 := by
    rw [print, rows_concat, ← String.append_assoc, ← String.append_assoc] at htext
    simpa using htext
  have hsome : (row last.1 last.2).toList ≠ [] := by simp [toList_row]
  obtain ⟨c, hc⟩ := Option.ne_none_iff_exists'.1 (mt List.getLast?_eq_none_iff.1 hsome)
  obtain ⟨hfeed, hreturn⟩ := ne_of_mem_row hword (List.mem_of_getLast? hc)
  have hlast : source.toList.getLast? = some c := by
    rw [hsource, String.toList_append, List.getLast?_append, hc, Option.some_or]
  rw [← htext, String.toList_append]
  exact (Text.lines_concat_feed hlast hfeed hreturn).symm

/-! ### Mappings -/

/-- Printable pairs stand for a mapping. -/
theorem exists_numbered (hname : Text.MatchesWordTail name.toList)
    (hpairs : Printable config pairs) :
    ∃ mapping : Mapping, mapping.name = name ∧ mapping.entries = numbered 2 pairs := by
  have hslotNames : (numbered 2 pairs).map SlotName.ofEntry =
      pairs.map fun pair => SlotName.of pair.2 pair.1 :=
    map_numbered (fun identifier typeName => SlotName.of typeName identifier) 2
  refine ⟨{
    name
    entries := numbered 2 pairs
    name_isWordTail := Text.isWordTail_iff_matchesWordTail.2 hname
    nodup_identifiers := ?_
    nodup_slotNames := hslotNames ▸ hpairs.nodup_slotNames
    not_reserved := fun e he => ?_ }, rfl, rfl⟩
  · rw [map_numbered fun identifier _ => identifier]
    exact hpairs.nodup_identifiers
  · have hmem : SlotName.ofEntry e ∈ pairs.map fun pair => SlotName.of pair.2 pair.1 :=
      hslotNames ▸ List.mem_map_of_mem he
    obtain ⟨pair, hpair, heq⟩ := List.mem_map.1 hmem
    exact isReserved_eq_false_iff.2 (heq ▸ hpairs.unreserved pair hpair)

/-- The entries of a mapping that was read are printable, and they have the numbers of the lines that
they are printed on. -/
theorem printable_of_ofSource (h : ofSource name source config = .ok mapping) :
    Printable config mapping.rowPairs ∧ mapping.entries = numbered 2 mapping.rowPairs := by
  obtain ⟨rfl, hread⟩ := ofSource_eq_ok h
  have hgood : ∀ e ∈ mapping.entries, config.width.contains e.identifier.toNat ∧
      Text.MatchesWord e.typeName.toList := by
    intro e he
    obtain ⟨i, hi⟩ := List.getElem?_of_mem he
    obtain ⟨-, -, _, -, _, -, hfield, hword⟩ := saysEntry_of_readEntries hread hi
    exact ⟨(Identifier.read_eq_ok_iff.1 hfield).2, hword⟩
  refine ⟨⟨List.forall_mem_map.2 fun e he => (hgood e he).1,
    List.forall_mem_map.2 fun e he => (hgood e he).2, ?_, ?_,
    List.forall_mem_map.2 fun e he => isReserved_eq_false_iff.1 (mapping.not_reserved e he)⟩, ?_⟩
  · rw [rowPairs, List.map_map]
    exact mapping.nodup_identifiers
  · rw [rowPairs, List.map_map]
    exact mapping.nodup_slotNames
  · refine List.ext_getElem? fun i => ?_
    cases he : mapping.entries[i]? with
    | none => simp [numbered, rowPairs, he]
    | some e =>
        have hline : e.line = i + 2 := (saysEntry_of_readEntries hread he).1
        simp [numbered, rowPairs, he, ← hline]

/-- Printable pairs are read back from the text that they are printed as, with or without the line feed
behind the last of them. What was read from any text is read again from the text that it is printed as
under any first line. -/
theorem reading_undoes_printing (name first : String) (config : Config)
    (hfirst : IsFirstLine config first) :
    (Text.MatchesWordTail name.toList → ∀ pairs, Printable config pairs →
      ∃ mapping, ofSource name (print first pairs) config = .ok mapping ∧
        mapping.entries = pairs.mapIdx (fun i pair => ⟨pair.1, pair.2, i + 2⟩) ∧
        ∀ source, pairs ≠ [] → source ++ "\n" = print first pairs →
          ofSource name source config = .ok mapping) ∧
      ∀ source mapping, ofSource name source config = .ok mapping →
        ofSource name (print first mapping.rowPairs) config = .ok mapping := by
  constructor
  · intro hname pairs hpairs
    obtain ⟨mapping, rfl, hentries⟩ := exists_numbered hname hpairs
    refine ⟨mapping, ?_, hentries, fun source hne htext => ?_⟩
    · exact ofSource_of_readEntries (hentries ▸ readEntries_of_lines hfirst hpairs rfl)
    · have hlines := lines_of_concat_feed hpairs.words hne htext
      exact ofSource_of_readEntries (hentries ▸ readEntries_of_lines hfirst hpairs hlines)
  · intro source mapping h
    obtain ⟨hpairs, hentries⟩ := printable_of_ofSource h
    obtain ⟨rfl, -⟩ := ofSource_eq_ok h
    have hread : readEntries mapping.name (print first mapping.rowPairs) config = .ok mapping.entries :=
      hentries ▸ readEntries_of_lines hfirst hpairs rfl
    exact ofSource_of_readEntries hread

/-- A configuration with a marker and the narrowest width. -/
def markedConfig : Config :=
  { width := .u8, marker := some "proto" }

/-- Three protocols are read back from the text that they are printed as, from the same text without
its last line feed, and from the text that their entries are printed as when they have been read. -/
theorem reading_printed_protocols :
    ∃ mapping,
      ofSource "ip" (print "protocols" [(6, "TCPAnalyzer"), (0x11, "UDPAnalyzer")]) markedConfig =
        .ok mapping ∧
      mapping.entries = [⟨6, "TCPAnalyzer", 2⟩, ⟨0x11, "UDPAnalyzer", 3⟩] ∧
      ofSource "ip" "protocols\n6 TCPAnalyzer\n11 UDPAnalyzer" markedConfig = .ok mapping ∧
      ofSource "ip" (print "protocols" mapping.rowPairs) markedConfig = .ok mapping := by
  have hfirst : IsFirstLine markedConfig "protocols" := by
    refine ⟨by decide, by decide, fun marker hmarker => ?_⟩
    cases hmarker
    exact ⟨[], "cols".toList, rfl⟩
  have hpairs : Printable markedConfig [(6, "TCPAnalyzer"), (0x11, "UDPAnalyzer")] := by
    have hword {typeName : String} (h : Text.isWord typeName) : Text.MatchesWord typeName.toList :=
      Text.isWord_iff_matchesWord.1 h
    refine ⟨by decide, ?_, by decide, by decide, by decide⟩
    simp only [List.forall_mem_cons, List.not_mem_nil, false_imp_iff, implies_true, and_true]
    exact ⟨hword (by decide), hword (by decide)⟩
  obtain ⟨hprinted, hread⟩ := reading_undoes_printing "ip" "protocols" markedConfig hfirst
  have hname : Text.MatchesWordTail "ip".toList :=
    Text.isWordTail_iff_matchesWordTail.1 (by decide)
  obtain ⟨mapping, hmapping, hentries, hunended⟩ := hprinted hname _ hpairs
  exact ⟨mapping, hmapping, hentries, hunended _ (by simp) (by rfl), hread _ _ hmapping⟩

end Mapping

end Switchboard
