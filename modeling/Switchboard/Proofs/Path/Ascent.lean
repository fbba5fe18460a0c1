import Switchboard.Proofs.Path.Join

/-!
The directory of a path and the paths above it. What is joined to a directory under different names has
one directory, which is written with the pieces in front of the name, without the idle ones among them
that stand last. The paths above a directory are written with the first of its pieces, so none of them
names anything that the directory does not name, and the directory is the first of them unless there
are none.
-/

namespace Switchboard.Path

/-! ### Pieces -/

theorem not_mem_of_mem_pieces {path : Path} {piece : List Char} (h : piece ∈ path.pieces) :
    '/' ∉ piece :=
  not_mem_of_mem_splitOn h

theorem not_mem_of_mem_front {base : Path} {piece : List Char} (h : piece ∈ base.front) :
    '/' ∉ piece := by
  refine not_mem_of_mem_pieces (show piece ∈ base.pieces from ?_)
  rcases base.pieces_eq_front with hpieces | hpieces
  · rw [hpieces]
    exact h
  · rw [hpieces]
    exact List.mem_append_left _ h

theorem pieces_ofReversed {reversed : List (List Char)} (hne : reversed ≠ []) (htop : reversed ≠ [[]])
    (hslash : ∀ piece ∈ reversed, '/' ∉ piece) : (ofReversed reversed).pieces = reversed.reverse := by
  unfold ofReversed
  split
  · exact absurd rfl htop
  · rw [pieces, String.toList_ofList]
    exact List.splitOn_intercalate '/' (by simpa using hslash) (by simpa using hne)

/-- The path starts at the top directory. -/
def IsAbsolute (path : Path) : Prop :=
  path.text.toList.head? = some '/'

instance (path : Path) : Decidable path.IsAbsolute :=
  inferInstanceAs (Decidable (_ = _))

theorem isAbsolute_iff {path : Path} :
    path.IsAbsolute ↔ ∃ next rest, path.pieces = [] :: next :: rest := by
  unfold IsAbsolute pieces
  cases path.text.toList with
  | nil => simp
  | cons c rest =>
      rw [List.splitOn_cons_eq_if_modifyHead]
      cases hpieces : rest.splitOn '/' with
      | nil => exact absurd hpieces (List.splitOn_ne_nil _ _)
      | cons first others => by_cases hc : c = '/' <;> simp [hc]

/-! ### Settled pieces -/

/-- Pieces do not end in an idle one, but for a single piece. -/
inductive Settled : List (List Char) → Prop
  | single (piece : List Char) : Settled [piece]
  | more {piece : List Char} (hpiece : isIdle piece = false) (before : List Char)
      (rest : List (List Char)) : Settled (piece :: before :: rest)

theorem Settled.ne_nil {reversed : List (List Char)} (h : Settled reversed) : reversed ≠ [] := by
  cases h <;> simp

/-- Settling gives up idle pieces. -/
theorem settle_spec {reversed : List (List Char)} (hne : reversed ≠ []) :
    Settled (settle reversed) ∧ ∃ idle, reversed = idle ++ settle reversed ∧
      ∀ piece ∈ idle, isIdle piece := by
  fun_induction settle reversed with
  | case1 piece before rest hidle ih =>
      obtain ⟨hsettled, idle, hrest, hidles⟩ := ih (List.cons_ne_nil _ _)
      refine ⟨hsettled, piece :: idle, by rw [List.cons_append, ← hrest], ?_⟩
      exact List.forall_mem_cons.2 ⟨hidle, hidles⟩
  | case2 piece before rest hidle =>
      exact ⟨.more (Bool.not_eq_true _ ▸ hidle) before rest, [], rfl, by simp⟩
  | case3 short hshort =>
      refine ⟨?_, [], rfl, by simp⟩
      cases short with
      | nil => exact absurd rfl hne
      | cons piece rest =>
          cases rest with
          | nil => exact .single piece
          | cons before rest => exact absurd rfl (hshort piece before rest)

/-! ### The directory of what is joined -/

/-- The directory of what is joined to a path by a name. -/
def opened (base : Path) : Path :=
  if base.front = [] then ⟨"."⟩ else ofReversed (settle base.front.reverse)

/-- The directory is the working directory, the top directory, or written with the settled pieces. -/
theorem opened_cases (base : Path) :
    base.front = [] ∧ base.opened = ⟨"."⟩ ∨
      ∃ reversed idle, Settled reversed ∧ base.front.reverse = idle ++ reversed ∧
        (∀ piece ∈ idle, isIdle piece) ∧
        (reversed = [[]] ∧ base.opened = ⟨"/"⟩ ∨ reversed ≠ [[]] ∧
          base.opened = ofReversed reversed ∧ base.opened.pieces = reversed.reverse) := by
  by_cases hfront : base.front = []
  · exact .inl ⟨hfront, if_pos hfront⟩
  · have hopened : base.opened = ofReversed (settle base.front.reverse) := if_neg hfront
    have hne : base.front.reverse ≠ [] := by simpa using hfront
    obtain ⟨hsettled, idle, hreverse, hidle⟩ := settle_spec hne
    refine .inr ⟨settle base.front.reverse, idle, hsettled, hreverse, hidle, ?_⟩
    by_cases htop : settle base.front.reverse = [[]]
    · exact .inl ⟨htop, by rw [hopened, htop]; rfl⟩
    · refine .inr ⟨htop, hopened, hopened ▸ pieces_ofReversed hsettled.ne_nil htop ?_⟩
      intro piece hpiece
      have hmem : piece ∈ base.front.reverse := hreverse ▸ List.mem_append_right idle hpiece
      exact not_mem_of_mem_front (List.mem_reverse.1 hmem)

theorem text_opened_ne (base : Path) : base.opened.text ≠ "" := by
  obtain ⟨-, hopened⟩ | ⟨reversed, -, -, -, -, ⟨-, hopened⟩ | ⟨htop, -, hpieces⟩⟩ := base.opened_cases
  · rw [hopened]
    decide
  · rw [hopened]
    decide
  · intro hempty
    rw [pieces, hempty] at hpieces
    exact htop (List.reverse_eq_iff.1 hpieces.symm)

theorem parent?_of_settle {path : Path} {piece : List Char} {before : List (List Char)}
    (hpiece : piece ≠ []) (h : settle path.pieces.reverse = piece :: before) :
    path.parent? = some (if before = [] then ⟨""⟩ else ofReversed (settle before)) := by
  obtain ⟨c, rest, rfl⟩ := List.exists_cons_of_ne_nil hpiece
  rw [parent?, h]
  cases before with
  | nil => rfl
  | cons above others => rfl

theorem directory_of_parent? {path parent : Path} (h : path.parent? = some parent) :
    path.directory = if parent.text = "" then ⟨"."⟩ else parent := by
  rw [directory, h]
  split
  · next heq => cases heq
  · next heq =>
    cases heq
    rfl
  · next hne heq =>
    cases heq
    rw [if_neg fun hempty => hne (congrArg Path.mk hempty)]

/-- Whatever the name, the directory is the same. -/
theorem directory_join (base : Path) {name : String} (h : IsName name) :
    (base.join name).directory = base.opened := by
  have hpieces : settle (base.join name).pieces.reverse = name.toList :: base.front.reverse := by
    rw [pieces_join_eq base h.head?_ne, h.splitOn, List.reverse_append, List.reverse_singleton,
      List.singleton_append, settle_of_not_isIdle h.not_isIdle]
  have hname : name.toList ≠ [] := by simpa using h.ne_empty
  have hopened := base.text_opened_ne
  rw [directory_of_parent? (parent?_of_settle hname hpieces)]
  unfold opened at hopened ⊢
  by_cases hfront : base.front = []
  · simp [hfront]
  · simp only [hfront, if_false, List.reverse_eq_nil_iff] at hopened ⊢
    rw [if_neg hopened]

/-- Paths that have their first pieces in common start at one place. -/
theorem isAbsolute_congr {path other : Path} {named more more' : List (List Char)}
    (hpath : path.pieces = named ++ more) (hother : other.pieces = named ++ more')
    (hne : named ≠ []) (htop : named ≠ [[]]) : path.IsAbsolute ↔ other.IsAbsolute := by
  obtain ⟨first, rest, rfl⟩ := List.exists_cons_of_ne_nil hne
  rw [isAbsolute_iff, isAbsolute_iff, hpath, hother]
  cases rest with
  | nil =>
      have hfirst : first ≠ [] := fun h => htop (by rw [h])
      simp [hfirst]
  | cons next others => simp

/-- An empty first piece in front of a name is the top directory. -/
theorem isAbsolute_of_front {base : Path} {rest : List (List Char)} (h : base.front = [] :: rest) :
    base.IsAbsolute := by
  rw [isAbsolute_iff]
  rcases base.pieces_eq_front with hpieces | hpieces
  · rw [h] at hpieces
    cases rest with
    | nil =>
        have hempty : base.text = "" := by
          have hjoin : ['/'].intercalate base.pieces = base.text.toList :=
            List.intercalate_splitOn '/'
          rw [hpieces] at hjoin
          simpa using hjoin.symm
        simp [front, hempty, pieces] at h
    | cons next others => exact ⟨next, others, hpieces⟩
  · rw [h] at hpieces
    cases rest with
    | nil => exact ⟨[], [], hpieces⟩
    | cons next others => exact ⟨next, others ++ [[]], by simpa using hpieces⟩

/-- The directory of what is joined to a path is written like the path, but for idle pieces at the
end. -/
theorem opened_spec (base : Path) : ∃ named idle idle', base.front = named ++ idle ∧
    base.opened.pieces = named ++ idle' ∧ (∀ piece ∈ idle, isIdle piece) ∧
    (∀ piece ∈ idle', isIdle piece) ∧ (base.opened.IsAbsolute ↔ base.IsAbsolute) := by
  obtain ⟨hfront, hopened⟩ | ⟨reversed, idle, hsettled, hreverse, hidle, hcases⟩ := base.opened_cases
  · refine ⟨[], [], [['.']], hfront, by rw [hopened]; rfl, by simp, by simp [isIdle], ?_⟩
    have hbase : ¬ base.IsAbsolute := by
      rw [isAbsolute_iff]
      rcases base.pieces_eq_front with hpieces | hpieces <;> simp [hpieces, hfront]
    rw [hopened]
    exact iff_of_false (by decide) hbase
  · have hnamed : base.front = reversed.reverse ++ idle.reverse := by
      rw [← List.reverse_append, ← hreverse, List.reverse_reverse]
    have hidle' : ∀ piece ∈ idle.reverse, isIdle piece := fun piece hpiece =>
      hidle piece (List.mem_reverse.1 hpiece)
    obtain ⟨rfl, hopened⟩ | ⟨htop, -, hopened⟩ := hcases
    · refine ⟨_, _, [[]], hnamed, by rw [hopened]; rfl, hidle', by simp [isIdle], ?_⟩
      rw [hopened]
      exact iff_of_true (by decide) (isAbsolute_of_front hnamed)
    · refine ⟨_, _, [], hnamed, by rw [hopened, List.append_nil], hidle', by simp, ?_⟩
      have hne : reversed.reverse ≠ [] := by simpa using hsettled.ne_nil
      have htop' : reversed.reverse ≠ [[]] := by simpa using htop
      rcases base.pieces_eq_front with hpieces | hpieces
      · exact isAbsolute_congr (hopened.trans (List.append_nil _).symm) (hpieces.trans hnamed) hne htop'
      · rw [hnamed, List.append_assoc] at hpieces
        exact isAbsolute_congr (hopened.trans (List.append_nil _).symm) hpieces hne htop'

/-! ### Ascents -/

/-- The paths above a path are written with its first pieces. -/
theorem mem_ascentOfReversed {reversed : List (List Char)} {above : Path}
    (h : above ∈ ascentOfReversed reversed) : ∃ skipped rest, reversed = skipped ++ rest ∧
      rest ≠ [] ∧ rest ≠ [[]] ∧ above = ofReversed rest := by
  fun_induction ascentOfReversed reversed with
  | case1 => cases h
  | case2 piece hempty => cases h
  | case3 piece hempty =>
      refine ⟨[], [piece], rfl, by simp, ?_, List.mem_singleton.1 h⟩
      simpa using hempty
  | case4 piece before rest hidle ih =>
      obtain ⟨skipped, found, hrest, hfound⟩ := ih h
      exact ⟨piece :: skipped, found, by rw [hrest, List.cons_append], hfound⟩
  | case5 piece before rest hidle ih =>
      rcases List.mem_cons.1 h with rfl | h
      · exact ⟨[], _, rfl, by simp, by simp, rfl⟩
      · obtain ⟨skipped, found, hrest, hfound⟩ := ih h
        exact ⟨piece :: skipped, found, by rw [hrest, List.cons_append], hfound⟩

theorem pieces_of_mem_ascent {path above : Path} (h : above ∈ path.ascent) :
    (∃ more, path.pieces = above.pieces ++ more) ∧ (above.IsAbsolute ↔ path.IsAbsolute) := by
  obtain ⟨skipped, rest, hreverse, hne, htop, rfl⟩ := mem_ascentOfReversed h
  have hpath : path.pieces = rest.reverse ++ skipped.reverse := by
    rw [← List.reverse_append, ← hreverse, List.reverse_reverse]
  have hslash : ∀ piece ∈ rest, '/' ∉ piece := fun piece hpiece =>
    not_mem_of_mem_pieces (hpath ▸ List.mem_append_left _ (List.mem_reverse.2 hpiece))
  have hpieces := pieces_ofReversed hne htop hslash
  refine ⟨⟨skipped.reverse, by rw [hpieces, hpath]⟩, ?_⟩
  refine isAbsolute_congr (hpieces.trans (List.append_nil _).symm) hpath ?_ ?_
  · simpa using hne
  · simpa using htop

theorem ascent_opened (base : Path) :
    base.opened.ascent = [] ∨ ∃ above, base.opened.ascent = base.opened :: above := by
  obtain ⟨-, hopened⟩ | ⟨reversed, -, hsettled, -, -, ⟨-, hopened⟩ | ⟨htop, hopened, hpieces⟩⟩ :=
    base.opened_cases
  · rw [hopened]
    exact .inr ⟨[], rfl⟩
  · rw [hopened]
    exact .inl rfl
  · rw [ascent, hpieces, List.reverse_reverse, hopened]
    cases hsettled with
    | single piece =>
        have hpiece : piece.isEmpty = false := by simpa using htop
        exact .inr ⟨[], by simp [ascentOfReversed, hpiece]⟩
    | more hpiece before rest => exact .inr ⟨_, by rw [ascentOfReversed, if_neg (by simp [hpiece])]⟩

end Switchboard.Path
