import Switchboard.Path

/-!
Paths that were joined. What is joined to a directory ends up as the last pieces of the path, whether
or not the directory is written with a slash at its end. A name, a piece that is neither idle nor
the way up, is then the file name of the path.
-/

namespace Switchboard.Path

/-- A text that can name an entry of a directory. -/
structure IsName (name : String) : Prop where
  ne_empty : name ≠ ""
  no_slash : '/' ∉ name.toList
  ne_dot : name ≠ "."
  ne_dots : name ≠ ".."

instance (name : String) : Decidable (IsName name) :=
  decidable_of_iff (name ≠ "" ∧ '/' ∉ name.toList ∧ name ≠ "." ∧ name ≠ "..")
    ⟨fun ⟨hempty, hslash, hdot, hdots⟩ => ⟨hempty, hslash, hdot, hdots⟩,
      fun h => ⟨h.ne_empty, h.no_slash, h.ne_dot, h.ne_dots⟩⟩

namespace IsName

variable {name : String}

theorem splitOn (h : IsName name) : name.toList.splitOn '/' = [name.toList] :=
  List.splitOn_eq_singleton h.no_slash

theorem head?_ne (h : IsName name) : name.toList.head? ≠ some '/' :=
  fun hhead => h.no_slash (List.mem_of_mem_head? hhead)

theorem not_isIdle (h : IsName name) : isIdle name.toList = false := by
  have hdot : name.toList ≠ ['.'] := fun heq => h.ne_dot (String.toList_inj.1 heq)
  simp [isIdle, h.ne_empty, hdot]

theorem toList_ne_dots (h : IsName name) : name.toList ≠ ['.', '.'] :=
  fun heq => h.ne_dots (String.toList_inj.1 heq)

/-- A piece of a path is a name if it is neither idle nor the way up. -/
theorem of_piece {piece : List Char} (hidle : isIdle piece = false) (hup : piece ≠ ['.', '.'])
    (hslash : '/' ∉ piece) : IsName (String.ofList piece) where
  ne_empty h := by
    obtain rfl : piece = [] := by simpa using h
    cases hidle
  no_slash := by simpa using hslash
  ne_dot h := by
    obtain rfl : piece = ['.'] := String.ofList_injective h
    cases hidle
  ne_dots h := hup (String.ofList_injective h)

/-- A text of two characters or more is a name if it has no slash and does not begin with `.`. -/
theorem of_head {c : Char} (hhead : name.toList.head? = some c) (hc : c ≠ '.')
    (hslash : '/' ∉ name.toList) : IsName name where
  ne_empty := by rintro rfl; cases hhead
  no_slash := hslash
  ne_dot := by rintro rfl; cases hhead; exact hc rfl
  ne_dots := by rintro rfl; cases hhead; exact hc rfl

end IsName

/-- No piece of a path has a slash in it. -/
theorem not_mem_of_mem_splitOn {text piece : List Char} (h : piece ∈ text.splitOn '/') :
    '/' ∉ piece := by
  induction text generalizing piece with
  | nil =>
      rw [List.splitOn_nil, List.mem_singleton] at h
      simp [h]
  | cons c rest ih =>
      rw [List.splitOn_cons_eq_if_modifyHead] at h
      split at h
      · rcases List.mem_cons.1 h with rfl | h
        · simp
        · exact ih h
      · next hc =>
        cases hpieces : rest.splitOn '/' with
        | nil => exact absurd hpieces (List.splitOn_ne_nil _ _)
        | cons first others =>
            rw [hpieces, List.modifyHead_cons, List.mem_cons] at h
            rcases h with rfl | h
            · have hfirst : '/' ∉ first := ih (hpieces ▸ List.mem_cons_self)
              rw [List.mem_cons, not_or]
              exact ⟨fun hslash => hc (by simp [← hslash]), hfirst⟩
            · exact ih (hpieces ▸ List.mem_cons_of_mem _ h)

theorem toList_join {base : Path} {tail : String} (hrel : tail.toList.head? ≠ some '/') :
    (base.join tail).text.toList = base.text.toList ++
      (if base.text = "" ∨ base.text.toList.getLast? = some '/' then [] else ['/']) ++
      tail.toList := by
  unfold join
  rw [if_neg hrel]
  split <;> simp

/-- The pieces in front of what is joined to a directory. An empty piece at the end of the directory
is given up. -/
def front (base : Path) : List (List Char) :=
  if base.text = "" ∨ base.text.toList.getLast? = some '/' then base.pieces.dropLast else base.pieces

theorem pieces_eq_front (base : Path) : base.pieces = base.front ∨ base.pieces = base.front ++ [[]] := by
  unfold front
  split
  · next hend =>
    right
    have hlast : base.pieces.getLast? = some [] := by
      unfold pieces
      rcases hend with hempty | hslash
      · simp [hempty]
      · obtain ⟨before, hbefore⟩ := List.getLast?_eq_some_iff.1 hslash
        rw [hbefore, List.splitOn_append_cons_self, List.splitOn_nil, List.getLast?_concat]
    obtain ⟨before, hbefore⟩ := List.getLast?_eq_some_iff.1 hlast
    rw [hbefore, List.dropLast_concat]
  · exact .inl rfl

theorem pieces_join_eq (base : Path) {tail : String} (hrel : tail.toList.head? ≠ some '/') :
    (base.join tail).pieces = base.front ++ tail.toList.splitOn '/' := by
  unfold front pieces
  rw [toList_join hrel]
  split
  · next hend =>
    rcases hend with hempty | hslash
    · simp [hempty]
    · obtain ⟨before, hbefore⟩ := List.getLast?_eq_some_iff.1 hslash
      rw [hbefore, List.splitOn_append_cons_self, List.splitOn_nil, List.dropLast_concat,
        List.append_nil, List.append_assoc]
      exact List.splitOn_append_cons_self before tail.toList
  · rw [List.append_assoc]
    exact List.splitOn_append_cons_self base.text.toList tail.toList

/-- Joined pieces follow those of the directory, of which an empty one at its end is given up. -/
theorem pieces_join (base : Path) {tail : String} (hrel : tail.toList.head? ≠ some '/') :
    ∃ front, (base.pieces = front ∨ base.pieces = front ++ [[]]) ∧
      (base.join tail).pieces = front ++ tail.toList.splitOn '/' :=
  ⟨base.front, base.pieces_eq_front, base.pieces_join_eq hrel⟩

/-- Of a joined path, what is in front of the next tail is put together like the path. -/
theorem front_join (base : Path) {tail : String} (hrel : tail.toList.head? ≠ some '/') :
    (base.join tail).front = base.front ++ front ⟨tail⟩ := by
  have hends : ((base.join tail).text = "" ∨ (base.join tail).text.toList.getLast? = some '/') ↔
      (tail = "" ∨ tail.toList.getLast? = some '/') := by
    rw [← String.toList_eq_nil_iff, toList_join hrel]
    by_cases htail : tail = ""
    · by_cases hbase : base.text = "" <;> by_cases hslash : base.text.toList.getLast? = some '/' <;>
        simp [htail, hbase, hslash]
    · have hne : tail.toList ≠ [] := by simpa using htail
      simp [htail, List.getLast?_append, List.getLast?_eq_some_getLast hne]
  have hpieces : pieces ⟨tail⟩ = tail.toList.splitOn '/' := rfl
  have hne : tail.toList.splitOn '/' ≠ [] := List.splitOn_ne_nil _ _
  rw [front.eq_1 (base.join tail), front.eq_1 ⟨tail⟩, pieces_join_eq base hrel, hpieces]
  simp only [hends]
  split
  · exact List.dropLast_append_of_ne_nil hne
  · rfl

theorem settle_of_not_isIdle {piece : List Char} (h : isIdle piece = false)
    (before : List (List Char)) : settle (piece :: before) = piece :: before := by
  cases before with
  | nil => rfl
  | cons above rest => simp [settle, h]

theorem fileName?_join (base : Path) {name : String} (h : IsName name) :
    (base.join name).fileName? = some name := by
  obtain ⟨front, -, hpieces⟩ := pieces_join base h.head?_ne
  rw [fileName?, hpieces, h.splitOn, List.reverse_append, List.reverse_singleton,
    List.singleton_append, settle_of_not_isIdle h.not_isIdle]
  simp [h.not_isIdle, h.toList_ne_dots]

theorem takeWhile_ne_dot {last : List Char} (h : '.' ∉ last) (front : List Char) :
    (last ++ '.' :: front).takeWhile (· != '.') = last := by
  rw [List.takeWhile_append_of_pos (by simpa using fun c hc => ne_of_mem_of_not_mem hc h)]
  simp

/-- A file name with one dot inside is cut there. -/
theorem splitExtension_append {stem extension : String} (hstem : stem ≠ "")
    (hextension : '.' ∉ extension.toList) :
    splitExtension (stem ++ "." ++ extension) = (stem, some extension) := by
  have hreverse : (stem ++ "." ++ extension).toList.reverse =
      extension.toList.reverse ++ '.' :: stem.toList.reverse := by simp
  have htake : (extension.toList.reverse ++ '.' :: stem.toList.reverse).takeWhile (· != '.') =
      extension.toList.reverse := takeWhile_ne_dot (by simpa using hextension) _
  unfold splitExtension
  simp only [hreverse, htake, List.drop_left]
  cases hchars : stem.toList.reverse with
  | nil => simp at hchars; exact absurd hchars hstem
  | cons c chars =>
      simp only [← hchars, List.reverse_reverse, String.ofList_toList]

end Switchboard.Path
