import Switchboard.Proofs.Mapping.Blame
import Switchboard.Proofs.Mapping.Grammar

/-!
The phases of reading a mapping: its name, its text, its identifiers, its slot names. Each of them
looks at the whole mapping before the next one begins, so the fault of an earlier phase is reported
even if a later one has something to say about a line further up (`PhaseFault`).

What a fault says about lines is true of the text. An entry knows the number of its line, and the
entries stand in the order of their lines, so the two lines of a repeated identifier or of a slot name
that is asked for twice are lines of the text, in this order, that say so (`SaysEntry`). The slot name
phase only sees identifiers that differ, which is why two lines that ask for one slot name do not have
one identifier.
-/

namespace Switchboard

/-- The texts `[A-Za-z0-9_]+`. -/
def Text.MatchesWordTail (text : List Char) : Prop :=
  text ≠ [] ∧ ∀ c ∈ text, IsLetter c ∨ ('0' ≤ c ∧ c ≤ '9') ∨ c = '_'

theorem Text.isWordTail_iff_matchesWordTail {text : String} :
    isWordTail text ↔ MatchesWordTail text.toList := by
  simp only [isWordTail_eq_true_iff, MatchesWordTail, isWordChar, Char.isAlphanum, Bool.or_eq_true,
    beq_iff_eq, isAlpha_iff_isLetter, isDigit_iff, or_assoc]

namespace Mapping

variable {name source : String} {config : Config} {entries : List Entry} {fault : Fault}

/-! ### Phases -/

/-- The faults of the first phase that fails, with what that phase and the ones before it found. -/
inductive PhaseFault (name source : String) (config : Config) : Fault → Prop
  | name (hname : ¬ Text.MatchesWordTail name.toList) :
      PhaseFault name source config (.mappingName name)
  | text {fault : Fault} (hname : Text.MatchesWordTail name.toList)
      (hread : readEntries name source config = .error fault) : PhaseFault name source config fault
  | identifiers {before after : List Entry} {first entry : Entry}
      (hname : Text.MatchesWordTail name.toList)
      (hread : readEntries name source config = .ok (before ++ entry :: after))
      (hbefore : (before.map (·.identifier)).Nodup) (hfirst : first ∈ before)
      (hidentifier : first.identifier = entry.identifier) :
      PhaseFault name source config
        (.duplicateIdentifier name entry.identifier entry.line first.line)
  | reserved {before after : List Entry} {entry : Entry}
      (hname : Text.MatchesWordTail name.toList)
      (hread : readEntries name source config = .ok (before ++ entry :: after))
      (hidentifiers : ((before ++ entry :: after).map (·.identifier)).Nodup)
      (hbefore : UsableNames before)
      (hreserved : (SlotName.ofEntry entry).text ∈ SlotName.reservedWords) :
      PhaseFault name source config (.reservedSlot name (SlotName.ofEntry entry).text entry.line)
  | slotNames {before after : List Entry} {first entry : Entry}
      (hname : Text.MatchesWordTail name.toList)
      (hread : readEntries name source config = .ok (before ++ entry :: after))
      (hidentifiers : ((before ++ entry :: after).map (·.identifier)).Nodup)
      (hbefore : UsableNames before)
      (hreserved : (SlotName.ofEntry entry).text ∉ SlotName.reservedWords)
      (hfirst : first ∈ before) (hslot : SlotName.ofEntry first = SlotName.ofEntry entry) :
      PhaseFault name source config
        (.slotCollision name (SlotName.ofEntry entry).text entry.line first.line)

theorem ofEntries_eq_error_iff (hname : Text.isWordTail name) :
    ofEntries name entries = .error fault ↔ checkIdentifiers name entries = .error fault ∨
      (entries.map (·.identifier)).Nodup ∧ checkSlotNames name entries = .error fault := by
  have hnodup : checkIdentifiers name entries = .ok () ↔ (entries.map (·.identifier)).Nodup :=
    checkIdentifiers_eq_ok_iff
  rw [ofEntries, dif_pos hname, ← hnodup]
  split
  · next found hcheck => simp [hcheck]
  · next hcheck =>
    split
    · next found hnames => simp [hcheck, hnames]
    · next hnames => simp [hcheck, hnames]

theorem PhaseFault.ofSource_eq (h : PhaseFault name source config fault) :
    ofSource name source config = .error fault := by
  have hword {name : String} (hname : Text.MatchesWordTail name.toList) : Text.isWordTail name :=
    Text.isWordTail_iff_matchesWordTail.2 hname
  cases h with
  | name hname => rw [ofSource, if_neg (mt Text.isWordTail_iff_matchesWordTail.1 hname)]
  | text hname hread => simp only [ofSource, hword hname, if_true, hread]
  | identifiers hname hread hbefore hfirst hidentifier =>
      simp only [ofSource, hword hname, if_true, hread]
      refine (ofEntries_eq_error_iff (hword hname)).2 (.inl (checkIdentifiers_eq_error_iff.2 ?_))
      exact ⟨_, _, _, rfl, hbefore, _, hfirst, hidentifier, rfl⟩
  | reserved hname hread hidentifiers hbefore hreserved =>
      simp only [ofSource, hword hname, if_true, hread]
      refine (ofEntries_eq_error_iff (hword hname)).2 (.inr ⟨hidentifiers, ?_⟩)
      exact checkSlotNames_eq_error_iff.2 ⟨_, _, _, rfl, hbefore, .inl ⟨hreserved, rfl⟩⟩
  | slotNames hname hread hidentifiers hbefore hreserved hfirst hslot =>
      simp only [ofSource, hword hname, if_true, hread]
      refine (ofEntries_eq_error_iff (hword hname)).2 (.inr ⟨hidentifiers, ?_⟩)
      exact checkSlotNames_eq_error_iff.2
        ⟨_, _, _, rfl, hbefore, .inr ⟨hreserved, _, hfirst, hslot, rfl⟩⟩

theorem phaseFault_of_ofSource (h : ofSource name source config = .error fault) :
    PhaseFault name source config fault := by
  by_cases hname : Text.isWordTail name
  · have hword := Text.isWordTail_iff_matchesWordTail.1 hname
    rw [ofSource, if_pos hname] at h
    cases hread : readEntries name source config with
    | error found =>
        rw [hread] at h
        cases h
        exact .text hword hread
    | ok entries =>
        rw [hread] at h
        rcases (ofEntries_eq_error_iff hname).1 h with hcheck | ⟨hidentifiers, hcheck⟩
        · obtain ⟨before, entry, after, rfl, hbefore, first, hfirst, hidentifier, rfl⟩ :=
            checkIdentifiers_eq_error_iff.1 hcheck
          exact .identifiers hword hread hbefore hfirst hidentifier
        · obtain ⟨before, entry, after, rfl, hbefore, hblames⟩ :=
            checkSlotNames_eq_error_iff.1 hcheck
          rcases hblames with ⟨hreserved, rfl⟩ | ⟨hreserved, first, hfirst, hslot, rfl⟩
          · exact .reserved hword hread hidentifiers hbefore hreserved
          · exact .slotNames hword hread hidentifiers hbefore hreserved hfirst hslot
  · rw [ofSource, if_neg hname] at h
    cases h
    exact .name (mt Text.isWordTail_iff_matchesWordTail.2 hname)

/-- A mapping is read exactly when no phase fails. -/
theorem exists_ofSource_iff : (∃ mapping, ofSource name source config = .ok mapping) ↔
    Text.MatchesWordTail name.toList ∧ ∃ entries, readEntries name source config = .ok entries ∧
      (entries.map (·.identifier)).Nodup ∧ UsableNames entries := by
  constructor
  · rintro ⟨mapping, hmapping⟩
    obtain ⟨rfl, hread⟩ := ofSource_eq_ok hmapping
    exact ⟨Text.isWordTail_iff_matchesWordTail.1 mapping.name_isWordTail, mapping.entries, hread,
      mapping.nodup_identifiers, mapping.nodup_slotNames, fun e he =>
        isReserved_eq_false_iff.1 (mapping.not_reserved e he)⟩
  · rintro ⟨hname, entries, hread, hidentifiers, hnames⟩
    let mapping : Mapping := {
      name, entries
      name_isWordTail := Text.isWordTail_iff_matchesWordTail.2 hname
      nodup_identifiers := hidentifiers
      nodup_slotNames := hnames.1
      not_reserved := fun e he => isReserved_eq_false_iff.2 (hnames.2 e he) }
    have hread' : readEntries mapping.name source config = .ok mapping.entries := hread
    exact ⟨mapping, ofSource_of_readEntries hread'⟩

/-! ### Lines of faults -/

/-- The line with the given number is an entry line with the given identifier and type name. -/
def SaysEntry (config : Config) (lines : List (List Char)) (line : Nat) (identifier : Identifier)
    (typeName : String) : Prop :=
  ∃ text, lines[line - 1]? = some text ∧ EntryLine config.width text identifier typeName

/-- Entries stand on the lines whose numbers they have, from the second line on. -/
theorem saysEntry_of_readEntries (hread : readEntries name source config = .ok entries) {i : Nat}
    {entry : Entry} (hentry : entries[i]? = some entry) :
    entry.line = i + 2 ∧ entry.line ≤ (Text.lines source.toList).length ∧
      SaysEntry config (Text.lines source.toList) entry.line entry.identifier entry.typeName := by
  obtain ⟨-, hentries⟩ := readLines_eq_ok (readEntries_eq_ok_iff.1 hread).2
  obtain ⟨hline, text, htext, hsays⟩ := hentries i entry hentry
  rw [List.getElem?_tail] at htext
  have hlt : i + 1 < (Text.lines source.toList).length := (List.getElem?_eq_some_iff.1 htext).1
  have hnumber : entry.line = i + 2 := by omega
  have hprevious : entry.line - 1 = i + 1 := by omega
  refine ⟨hnumber, by omega, text, ?_, hsays⟩
  rw [hprevious]
  exact htext

/-- Of two entries, the one in front stands further up. -/
theorem lines_of_split {before after : List Entry} {first entry : Entry}
    (hread : readEntries name source config = .ok (before ++ entry :: after))
    (hfirst : first ∈ before) :
    2 ≤ first.line ∧ first.line < entry.line ∧
      entry.line ≤ (Text.lines source.toList).length ∧
      SaysEntry config (Text.lines source.toList) first.line first.identifier first.typeName ∧
      SaysEntry config (Text.lines source.toList) entry.line entry.identifier entry.typeName := by
  obtain ⟨i, hi⟩ := List.getElem?_of_mem hfirst
  have hlt : i < before.length := (List.getElem?_eq_some_iff.1 hi).1
  have hfirst' : (before ++ entry :: after)[i]? = some first := by
    rw [List.getElem?_append_left hlt, hi]
  have hentry : (before ++ entry :: after)[before.length]? = some entry := by
    simp
  obtain ⟨hline, -, hsays⟩ := saysEntry_of_readEntries hread hfirst'
  obtain ⟨hline', hlength, hsays'⟩ := saysEntry_of_readEntries hread hentry
  exact ⟨by omega, by omega, hlength, hsays, hsays'⟩

/-- In a list of entries with different identifiers, no entry has that of one before it. -/
theorem identifier_ne_of_split {before after : List Entry} {first entry : Entry}
    (h : ((before ++ entry :: after).map (·.identifier)).Nodup) (hfirst : first ∈ before) :
    first.identifier ≠ entry.identifier := by
  rw [List.map_append, List.nodup_append] at h
  refine h.2.2 _ (List.mem_map_of_mem hfirst) _ ?_
  exact List.mem_map_of_mem List.mem_cons_self

/-- Reading the text itself fails with faults of lines only. -/
theorem eq_line_of_readEntries (h : readEntries name source config = .error fault) :
    ∃ line lineFault, fault = .line name line lineFault := by
  rcases readEntries_eq_error_iff.1 h with ⟨marker, -, -, rfl⟩ | ⟨-, hread⟩
  · exact ⟨_, _, rfl⟩
  · obtain ⟨good, bad, rest, lineFault, -, -, -, rfl⟩ := readLines_eq_error hread
    exact ⟨_, _, rfl⟩

section Lines

variable {blamed slotName : String} {identifier : Identifier} {line firstLine : Nat}

theorem lines_of_duplicateIdentifier
    (h : ofSource name source config =
      .error (.duplicateIdentifier blamed identifier line firstLine)) :
    blamed = name ∧ 2 ≤ firstLine ∧ firstLine < line ∧
      line ≤ (Text.lines source.toList).length ∧ ∃ firstType typeName,
        SaysEntry config (Text.lines source.toList) firstLine identifier firstType ∧
        SaysEntry config (Text.lines source.toList) line identifier typeName := by
  cases phaseFault_of_ofSource h with
  | text hname hread =>
      obtain ⟨_, _, heq⟩ := eq_line_of_readEntries hread
      cases heq
  | identifiers hname hread hbefore hfirst hidentifier =>
      obtain ⟨htwo, hlt, hlength, hsays, hsays'⟩ := lines_of_split hread hfirst
      rw [hidentifier] at hsays
      exact ⟨rfl, htwo, hlt, hlength, _, _, hsays, hsays'⟩

theorem lines_of_slotCollision
    (h : ofSource name source config = .error (.slotCollision blamed slotName line firstLine)) :
    blamed = name ∧ 2 ≤ firstLine ∧ firstLine < line ∧
      line ≤ (Text.lines source.toList).length ∧ ∃ firstIdentifier firstType identifier typeName,
        SaysEntry config (Text.lines source.toList) firstLine firstIdentifier firstType ∧
        SaysEntry config (Text.lines source.toList) line identifier typeName ∧
        firstIdentifier ≠ identifier ∧ (SlotName.of firstType firstIdentifier).text = slotName ∧
        (SlotName.of typeName identifier).text = slotName := by
  cases phaseFault_of_ofSource h with
  | text hname hread =>
      obtain ⟨_, _, heq⟩ := eq_line_of_readEntries hread
      cases heq
  | slotNames hname hread hidentifiers hbefore hreserved hfirst hslot =>
      obtain ⟨htwo, hlt, hlength, hsays, hsays'⟩ := lines_of_split hread hfirst
      have hne := identifier_ne_of_split hidentifiers hfirst
      exact ⟨rfl, htwo, hlt, hlength, _, _, _, _, hsays, hsays', hne,
        congrArg SlotName.text hslot, rfl⟩

theorem line_of_reservedSlot
    (h : ofSource name source config = .error (.reservedSlot blamed slotName line)) :
    blamed = name ∧ 2 ≤ line ∧ line ≤ (Text.lines source.toList).length ∧
      slotName ∈ SlotName.reservedWords ∧ ∃ identifier typeName,
        SaysEntry config (Text.lines source.toList) line identifier typeName ∧
        (SlotName.of typeName identifier).text = slotName := by
  cases phaseFault_of_ofSource h with
  | text hname hread =>
      obtain ⟨_, _, heq⟩ := eq_line_of_readEntries hread
      cases heq
  | @reserved before after entry hname hread hidentifiers hbefore hreserved =>
      have hentry : (before ++ entry :: after)[before.length]? = some entry := by
        simp
      obtain ⟨hline, hlength, hsays⟩ := saysEntry_of_readEntries hread hentry
      exact ⟨rfl, by omega, hlength, hreserved, _, _, hsays, rfl⟩

end Lines

/-- Reading a mapping succeeds exactly when the name can end a class name, the text has entries, no
two of these have one identifier, and their slot names can be used; the mapping has these entries and
no others. Otherwise the fault is that of the first phase that fails, wherever later phases would have
found one. A repeated identifier is on both of the lines that its fault names, and a slot name that is
asked for twice belongs to both of its lines, whose identifiers differ. -/
theorem reading_fails_by_phase (name source : String) (config : Config) :
    ∃ lines, Text.Lines source.toList lines ∧
      (∀ other, Text.Lines source.toList other → other = lines) ∧
      ((∃ mapping, ofSource name source config = .ok mapping) ↔
        Text.MatchesWordTail name.toList ∧ ∃ entries, readEntries name source config = .ok entries ∧
          (entries.map (·.identifier)).Nodup ∧ (entries.map SlotName.ofEntry).Nodup ∧
            ∀ e ∈ entries, (SlotName.ofEntry e).text ∉ SlotName.reservedWords) ∧
      (∀ mapping, ofSource name source config = .ok mapping →
        mapping.name = name ∧ readEntries name source config = .ok mapping.entries) ∧
      (∀ fault, ofSource name source config = .error fault ↔ PhaseFault name source config fault) ∧
      (∀ blamed identifier line firstLine,
        ofSource name source config = .error (.duplicateIdentifier blamed identifier line firstLine) →
        blamed = name ∧ 2 ≤ firstLine ∧ firstLine < line ∧ line ≤ lines.length ∧
          ∃ firstType typeName, SaysEntry config lines firstLine identifier firstType ∧
            SaysEntry config lines line identifier typeName) ∧
      (∀ blamed slotName line firstLine,
        ofSource name source config = .error (.slotCollision blamed slotName line firstLine) →
        blamed = name ∧ 2 ≤ firstLine ∧ firstLine < line ∧ line ≤ lines.length ∧
          ∃ firstIdentifier firstType identifier typeName,
            SaysEntry config lines firstLine firstIdentifier firstType ∧
            SaysEntry config lines line identifier typeName ∧ firstIdentifier ≠ identifier ∧
            (SlotName.of firstType firstIdentifier).text = slotName ∧
            (SlotName.of typeName identifier).text = slotName) ∧
      ∀ blamed slotName line,
        ofSource name source config = .error (.reservedSlot blamed slotName line) →
        blamed = name ∧ 2 ≤ line ∧ line ≤ lines.length ∧ slotName ∈ SlotName.reservedWords ∧
          ∃ identifier typeName, SaysEntry config lines line identifier typeName ∧
            (SlotName.of typeName identifier).text = slotName := by
  refine ⟨Text.lines source.toList, Text.lines_spec _, fun other hother => hother.eq_lines.symm,
    exists_ofSource_iff, fun mapping => ofSource_eq_ok,
    fun fault => ⟨phaseFault_of_ofSource, PhaseFault.ofSource_eq⟩, ?_, ?_, ?_⟩
  · exact fun blamed identifier line firstLine => lines_of_duplicateIdentifier
  · exact fun blamed slotName line firstLine => lines_of_slotCollision
  · exact fun blamed slotName line => line_of_reservedSlot

/-- A slot name that is reserved stands on the second line, and an identifier comes back on the last
one. -/
def lateRepetition : String :=
  "protocols\nf I\n6 TCPAnalyzer\n0x6 UDPAnalyzer"

/-- The identifier is reported, with both of its lines. -/
theorem reading_lateRepetition :
    ofSource "ip" lateRepetition {} = .error (.duplicateIdentifier "ip" 6 4 3) ∧
      ∃ lines, Text.Lines lateRepetition.toList lines ∧ lines.length = 4 ∧
        (SlotName.of "I" 0xf).text ∈ SlotName.reservedWords ∧ SaysEntry {} lines 2 0xf "I" ∧
        ∃ firstType typeName, SaysEntry {} lines 3 6 firstType ∧ SaysEntry {} lines 4 6 typeName := by
  have hname : Text.MatchesWordTail "ip".toList :=
    Text.isWordTail_iff_matchesWordTail.1 (by decide)
  have hread : readEntries "ip" lateRepetition {} =
      .ok ([⟨0xf, "I", 2⟩, ⟨6, "TCPAnalyzer", 3⟩] ++ ⟨6, "UDPAnalyzer", 4⟩ :: []) := by rfl
  obtain ⟨lines, hlines, -, -, -, hfault, hduplicate, -⟩ :=
    reading_fails_by_phase "ip" lateRepetition {}
  have hsource : ofSource "ip" lateRepetition {} = .error (.duplicateIdentifier "ip" 6 4 3) :=
    (hfault _).2 (.identifiers hname hread (by decide) (List.mem_cons_of_mem _ List.mem_cons_self) rfl)
  obtain ⟨-, -, -, -, hsays⟩ := hduplicate _ _ _ _ hsource
  obtain rfl := hlines.eq_lines
  refine ⟨hsource, _, hlines, by decide, by decide, ?_, hsays⟩
  exact (saysEntry_of_readEntries (i := 0) hread rfl).2.2

end Mapping

end Switchboard
