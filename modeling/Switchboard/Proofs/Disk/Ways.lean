import Mathlib.Data.List.Induction
import Switchboard.Proofs.Disk.Changes
import Switchboard.Proofs.Path.Ascent

/-!
The way of a path. A path enters the names it is written with, each of them from the location that the
pieces in front of it lead to, and this does not depend on what stands in a store. If a path leads to a
directory, all names on its way are directories. So of a path that leads to a directory it is known
what has to be made for any other path that enters no other names.

Two ways that differ in one name only do not differ behind a `..` that takes them back below that name.
Until then the name stands in both of them at the same depth, so one of them can never come to where
the other one leads (`enters_twin`).
-/

namespace Switchboard.Disk

namespace Location

/-- On the way from a location along some pieces, the name is entered from the other location. -/
def Enters (start : Location) (pieces : List String) (above : Location) (name : String) : Prop :=
  ∃ before after, pieces = before ++ name :: after ∧ Path.IsName name ∧ start.walk before = above

variable {start above below : Location} {pieces more : List String} {piece name : String}

theorem not_enters_nil : ¬ start.Enters [] above name := by
  rintro ⟨before, after, hpieces, -⟩
  simp at hpieces

theorem enters_cons_iff : start.Enters (piece :: pieces) above name ↔
    piece = name ∧ Path.IsName name ∧ start = above ∨ (start.enter piece).Enters pieces above name := by
  constructor
  · rintro ⟨before, after, hpieces, hname, hwalk⟩
    cases before with
    | nil =>
        obtain ⟨rfl, -⟩ := List.cons.inj hpieces
        exact .inl ⟨rfl, hname, hwalk⟩
    | cons first before =>
        obtain ⟨rfl, hrest⟩ := List.cons.inj hpieces
        exact .inr ⟨before, after, hrest, hname, hwalk⟩
  · rintro (⟨rfl, hname, rfl⟩ | ⟨before, after, rfl, hname, hwalk⟩)
    · exact ⟨[], pieces, rfl, hname, rfl⟩
    · exact ⟨piece :: before, after, rfl, hname, hwalk⟩

theorem enters_append_iff : start.Enters (pieces ++ more) above name ↔
    start.Enters pieces above name ∨ (start.walk pieces).Enters more above name := by
  induction pieces generalizing start with
  | nil => simp [not_enters_nil]
  | cons piece rest ih =>
      rw [List.cons_append, enters_cons_iff, enters_cons_iff, ih, or_assoc, walk_cons]

/-- Idle pieces lead nowhere and enter nothing. -/
theorem enter_of_isIdle {piece : List Char} (h : Path.isIdle piece) (location : Location) :
    location.enter (String.ofList piece) = location := by
  simp only [Path.isIdle, Bool.or_eq_true, List.isEmpty_iff, beq_iff_eq] at h
  rcases h with rfl | rfl <;> rfl

theorem walk_of_isIdle {idle : List (List Char)} (h : ∀ piece ∈ idle, Path.isIdle piece)
    (location : Location) : location.walk (idle.map String.ofList) = location := by
  induction idle with
  | nil => rfl
  | cons piece rest ih =>
      obtain ⟨hpiece, hrest⟩ := List.forall_mem_cons.1 h
      rw [List.map_cons, walk_cons, enter_of_isIdle hpiece, ih hrest]

theorem not_enters_of_isIdle {idle : List (List Char)} (h : ∀ piece ∈ idle, Path.isIdle piece) :
    ¬ start.Enters (idle.map String.ofList) above name := by
  rintro ⟨before, after, hpieces, hname, -⟩
  have hmem : name ∈ idle.map String.ofList := by simp [hpieces]
  obtain ⟨piece, hpiece, rfl⟩ := List.mem_map.1 hmem
  have hidle := hname.not_isIdle
  rw [String.toList_ofList, h piece hpiece] at hidle
  cases hidle

/-! ### Two ways that differ in one name -/

/-- A way from a name either leads back below it, and is then the same from any other name, or it
leads to somewhere above it. -/
theorem walk_replace (pieces : List String) (below : Location) :
    (∀ a b, walk (a :: below) pieces = walk (b :: below) pieces) ∨
      ∃ names, ∀ a, walk (a :: below) pieces = names ++ a :: below := by
  induction pieces using List.reverseRecOn with
  | nil => exact .inr ⟨[], fun a => rfl⟩
  | append_singleton pieces piece ih =>
      simp only [walk_append, walk_cons, walk_nil]
      rcases ih with hsame | ⟨names, hnames⟩
      · exact .inl fun a b => by rw [hsame a b]
      · simp only [hnames, enter]
        split
        · exact .inr ⟨names, fun a => rfl⟩
        · split
          · cases names with
            | nil => exact .inl fun a b => rfl
            | cons name rest => exact .inr ⟨rest, fun a => rfl⟩
          · exact .inr ⟨piece :: names, fun a => rfl⟩

/-- Where one of the two ways leads, the other one enters nothing else, unless both lead there. -/
theorem enters_twin {a b : String} (hne : a ≠ b)
    (h : Enters (a :: below) pieces (walk (b :: below) pieces) name) :
    Enters (b :: below) pieces (walk (b :: below) pieces) name ∨
      walk (a :: below) pieces = walk (b :: below) pieces := by
  obtain ⟨before, after, hpieces, hname, hwalk⟩ := h
  rcases walk_replace before below with hsame | ⟨names, hnames⟩
  · exact .inl ⟨before, after, hpieces, hname, (hsame b a).trans hwalk⟩
  · rcases walk_replace pieces below with hsame | ⟨names', hnames'⟩
    · exact .inr (hsame a b)
    · rw [hnames, hnames'] at hwalk
      have hnames := (List.append_inj' hwalk rfl).2
      exact absurd (List.cons.inj hnames).1 hne

end Location

/-! ### The way of a path -/

namespace Store

/-- The path enters the name from the location. -/
def Enters (store : Store) (path : Path) (above : Location) (name : String) : Prop :=
  (start store.home path.text).Enters (piecesOf path.text) above name

variable {store store' : Store} {path base : Path} {above location : Location} {name : String}

theorem enters_iff_of_home (h : store'.home = store.home) :
    store'.Enters path above name ↔ store.Enters path above name := by
  rw [Enters, Enters, h]

theorem start_eq_of_isAbsolute_iff {other : Path} (h : path.IsAbsolute ↔ other.IsAbsolute)
    (home : Location) : start home path.text = start home other.text := by
  unfold start
  exact if_congr h rfl rfl

/-- The entry that a path names is entered from its directory. -/
theorem enters_of_locateEntry (hlinkless : store.Linkless)
    (hentry : store.locateEntry path = .ok (above, name)) : store.Enters path above name := by
  obtain ⟨hname, front, empty, hpieces, -, hwalk⟩ := pieces_of_locateEntry hlinkless hentry
  exact ⟨front, empty, hpieces, hname, hwalk⟩

/-- All names on the way to a directory are directories. -/
theorem node?_of_enters {pieces : List String} {target : Location}
    (hadvance : store.advance location pieces = .ok (.node target))
    (htarget : store.node? target = some .directory) (h : location.Enters pieces above name) :
    store.node? (name :: above) = some .directory := by
  induction pieces generalizing location with
  | nil => exact absurd h Location.not_enters_nil
  | cons piece rest ih =>
      obtain ⟨-, ⟨-, hrest⟩ | ⟨-, hend, -⟩ | ⟨link, -, hend⟩⟩ := advance_cases hadvance
      · rcases Location.enters_cons_iff.1 h with ⟨rfl, hname, rfl⟩ | h
        · rw [Location.enter_of_isName hname] at hrest
          cases rest with
          | nil =>
              cases hrest
              exact htarget
          | cons next more => exact (advance_cases hrest).1
        · exact ih hrest h
      · cases hend
      · cases hend

theorem HasDirectory.node?_of_enters (hlinkless : store.Linkless) (h : store.HasDirectory path)
    (henters : store.Enters path above name) : store.node? (name :: above) = some .directory :=
  Store.node?_of_enters ((locate_eq_ok_iff hlinkless).1 h.1).2 h.2 henters

/-- A path above another one enters nothing that this one does not enter. -/
theorem enters_of_mem_ascent {upper : Path} (hupper : upper ∈ path.ascent)
    (h : store.Enters upper above name) : store.Enters path above name := by
  obtain ⟨⟨more, hpieces⟩, habsolute⟩ := Path.pieces_of_mem_ascent hupper
  rw [Enters, piecesOf_eq, start_eq_of_isAbsolute_iff habsolute] at h
  rw [Enters, piecesOf_eq, hpieces, List.map_append]
  exact Location.enters_append_iff.2 (.inl h)

/-! ### Directories of joined names -/

theorem place_eq_walk_front (store : Store) (base : Path) :
    store.place base = (start store.home base.text).walk (base.front.map String.ofList) := by
  rw [place, piecesOf_eq]
  rcases base.pieces_eq_front with hpieces | hpieces
  · rw [hpieces]
  · rw [hpieces, List.map_append, Location.walk_append]
    rfl

/-- The directory of what is joined to a path is where the path leads. -/
theorem place_opened (store : Store) (base : Path) : store.place base.opened = store.place base := by
  obtain ⟨named, idle, idle', hfront, hpieces, hidle, hidle', habsolute⟩ := base.opened_spec
  rw [place_eq_walk_front store base, place, piecesOf_eq, hpieces, hfront, List.map_append,
    List.map_append, Location.walk_append, Location.walk_append, Location.walk_of_isIdle hidle,
    Location.walk_of_isIdle hidle', start_eq_of_isAbsolute_iff habsolute]

theorem enters_opened_iff : store.Enters base.opened above name ↔
    (start store.home base.text).Enters (base.front.map String.ofList) above name := by
  obtain ⟨named, idle, idle', hfront, hpieces, hidle, hidle', habsolute⟩ := base.opened_spec
  rw [Enters, piecesOf_eq, hpieces, hfront, List.map_append, List.map_append,
    Location.enters_append_iff, Location.enters_append_iff, start_eq_of_isAbsolute_iff habsolute]
  simp [Location.not_enters_of_isIdle hidle, Location.not_enters_of_isIdle hidle']

/-- The directory of what is joined to a path enters what the path enters. -/
theorem enters_opened : store.Enters base.opened above name ↔ store.Enters base above name := by
  rw [enters_opened_iff, Enters, piecesOf_eq]
  rcases base.pieces_eq_front with hpieces | hpieces
  · rw [hpieces]
  · have hidle : ∀ piece ∈ [([] : List Char)], Path.isIdle piece := by simp [Path.isIdle]
    rw [hpieces, List.map_append, Location.enters_append_iff,
      or_iff_left (Location.not_enters_of_isIdle hidle)]

end Store

end Switchboard.Disk
