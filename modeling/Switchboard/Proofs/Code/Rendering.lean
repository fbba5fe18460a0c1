import Switchboard.Code

/-!
Rendered code read back. A rendered line is taken apart by taking the indentation off its front as often
as it stands there. What is left is the text of the line, and how often it came off is its level, as long
as no text begins with the indentation itself. A line feed ends a line and nothing else, as long as there
is none in a text. Only the level of an empty line is lost, since it is never written.

So code is rendered without loss up to the levels of its empty lines (`Code.Line.shown`), and two trees
are rendered alike exactly when they show the same lines.
-/

namespace Switchboard.Code

/-! ### Reading back -/

/-- The parts of a text that are ended by a line feed, without it. -/
def feedLines (text : String) : List (List Char) :=
  (text.toList.splitOn '\n').dropLast

/-- Takes the indentation off the front of a text as often as it stands there. -/
def unindent (indent text : List Char) : Line :=
  if indent ≠ [] ∧ indent.isPrefixOf text then
    let rest := unindent indent (text.drop indent.length)
    ⟨rest.level + 1, rest.text⟩
  else ⟨0, String.ofList text⟩
termination_by text.length
decreasing_by
  rename_i h
  have hpos : 0 < indent.length := List.length_pos_iff.2 h.1
  have hle : indent.length ≤ text.length := (List.isPrefixOf_iff_prefix.1 h.2).length_le
  rw [List.length_drop]
  omega

/-- The lines that a rendered text shows. -/
def recover (indent text : String) : List Line :=
  (feedLines text).map (unindent indent.toList)

/-- What is shown of a line. An empty line has no level. -/
def Line.shown (line : Line) : Line :=
  if line.text = "" then ⟨0, ""⟩ else line

/-- The lines that code shows, in order. -/
def shownLines (code : List Code) : List Line :=
  (linesOf 0 code).map (·.shown)

/-- The text of the line cannot be taken for an indented one, nor for more than one line. -/
structure Line.Unambiguous (indent : String) (line : Line) : Prop where
  no_feed : '\n' ∉ line.text.toList
  no_indent : ¬ indent.toList <+: line.text.toList

/-! ### One line -/

section Unindent

variable {indent text : List Char}

theorem unindent_of_not_prefix (h : ¬ indent <+: text) :
    unindent indent text = ⟨0, String.ofList text⟩ := by
  rw [unindent, if_neg]
  exact fun hprefix => h (List.isPrefixOf_iff_prefix.1 hprefix.2)

theorem unindent_append (h : indent ≠ []) (text : List Char) : unindent indent (indent ++ text) =
    ⟨(unindent indent text).level + 1, (unindent indent text).text⟩ := by
  rw [unindent, if_pos ⟨h, List.isPrefixOf_iff_prefix.2 (List.prefix_append _ _)⟩, List.drop_left]

/-- A line says how often the indentation comes off, and what is left begins with it no more. There is
only one way to do that. -/
theorem unindent_eq_iff (h : indent ≠ []) {line : Line} : unindent indent text = line ↔
    text = (List.replicate line.level indent).flatten ++ line.text.toList ∧
      ¬ indent <+: line.text.toList := by
  constructor
  · rintro rfl
    fun_induction unindent indent text with
    | case1 text hprefix rest ih =>
        obtain ⟨more, rfl⟩ := List.isPrefixOf_iff_prefix.1 hprefix.2
        have hmore : (indent ++ more).drop indent.length = more := List.drop_left
        refine ⟨?_, ih.2⟩
        show indent ++ more = (List.replicate (rest.level + 1) indent).flatten ++ rest.text.toList
        rw [List.replicate_succ, List.flatten_cons, List.append_assoc, ← ih.1, hmore]
    | case2 text hprefix =>
        have hnot : ¬ indent <+: text := fun hpre =>
          hprefix ⟨h, List.isPrefixOf_iff_prefix.2 hpre⟩
        simpa using hnot
  · obtain ⟨level, rest⟩ := line
    rintro ⟨rfl, hnot⟩
    induction level with
    | zero => simpa using unindent_of_not_prefix hnot
    | succ level ih =>
        simp only at ih
        rw [List.replicate_succ, List.flatten_cons, List.append_assoc, unindent_append h, ih hnot]

end Unindent

variable {indent : String} {line : Line} {code code' : List Code}

/-- A line as it is written, without its line feed. -/
def Line.body (indent : String) (line : Line) : List Char :=
  if line.text = "" then [] else (List.replicate line.level indent.toList).flatten ++ line.text.toList

theorem Line.toList_render (indent : String) (line : Line) :
    (line.render indent).toList = line.body indent ++ ['\n'] := by
  unfold render body
  split
  · rfl
  · simp [String.toList_join, List.flatMap]

theorem Line.body_shown (indent : String) (line : Line) : line.shown.body indent = line.body indent := by
  unfold shown
  split
  · next hempty => simp [body, hempty]
  · rfl

theorem Line.Unambiguous.feed_not_mem_body (hfeed : '\n' ∉ indent.toList)
    (h : line.Unambiguous indent) : '\n' ∉ line.body indent := by
  unfold body
  split
  · simp
  · simp only [List.mem_append, List.mem_flatten, List.mem_replicate, not_or, not_exists, not_and]
    refine ⟨?_, h.no_feed⟩
    rintro _ ⟨-, rfl⟩
    exact hfeed

/-- The text of a line and its level are read off the line. -/
theorem Line.Unambiguous.unindent_body (hindent : indent ≠ "") (h : line.Unambiguous indent) :
    unindent indent.toList (line.body indent) = line.shown := by
  have hne : indent.toList ≠ [] := by simpa using hindent
  rw [unindent_eq_iff hne]
  unfold body shown
  split
  · simpa using hindent
  · exact ⟨rfl, h.no_indent⟩

/-! ### All lines -/

theorem toList_render (indent : String) (code : List Code) : (render indent code).toList =
    ((linesOf 0 code).map (·.body indent)).flatMap (· ++ ['\n']) := by
  simp [render, String.toList_join, List.flatMap, Function.comp_def, Line.toList_render]

/-- Texts that are each ended by a line feed are cut apart again. -/
theorem splitOn_flatMap_feed {bodies : List (List Char)} (h : ∀ body ∈ bodies, '\n' ∉ body) :
    (bodies.flatMap (· ++ ['\n'])).splitOn '\n' = bodies ++ [[]] := by
  induction bodies with
  | nil => rfl
  | cons body rest ih =>
      obtain ⟨hbody, hrest⟩ := List.forall_mem_cons.1 h
      rw [List.flatMap_cons, List.append_assoc, List.singleton_append,
        List.splitOn_append_cons_self_of_not_mem hbody, ih hrest]
      rfl

section Render

variable (hindent : indent ≠ "") (hfeed : '\n' ∉ indent.toList)
  (hcode : ∀ line ∈ linesOf 0 code, line.Unambiguous indent)

include hfeed hcode in
/-- Each line of the code is one line of the text. -/
theorem feedLines_render : feedLines (render indent code) = (linesOf 0 code).map (·.body indent) := by
  have hbodies : ∀ body ∈ (linesOf 0 code).map (·.body indent), '\n' ∉ body := by
    intro body hbody
    obtain ⟨line, hline, rfl⟩ := List.mem_map.1 hbody
    exact (hcode line hline).feed_not_mem_body hfeed
  rw [feedLines, toList_render, splitOn_flatMap_feed hbodies, List.dropLast_concat]

include hindent hfeed hcode

/-- What was rendered is what is recovered. -/
theorem recover_render : recover indent (render indent code) = shownLines code := by
  rw [recover, feedLines_render hfeed hcode, List.map_map, shownLines]
  exact List.map_congr_left fun line hline => (hcode line hline).unindent_body hindent

/-- Trees are rendered alike if they show the same lines, and only then. -/
theorem render_eq_iff (hcode' : ∀ line ∈ linesOf 0 code', line.Unambiguous indent) :
    render indent code = render indent code' ↔ shownLines code = shownLines code' := by
  constructor
  · intro h
    rw [← recover_render hindent hfeed hcode, h, recover_render hindent hfeed hcode']
  · intro h
    have hbodies (code : List Code) : (linesOf 0 code).map (·.body indent) =
        (shownLines code).map (·.body indent) := by
      rw [shownLines, List.map_map]
      exact List.map_congr_left fun line _ => (line.body_shown indent).symm
    rw [← String.toList_inj, toList_render, toList_render, hbodies code, hbodies code', h]

end Render

end Switchboard.Code
