import Switchboard.Disk.Store
import Switchboard.Proofs.Path.Join

/-!
Where paths lead when there are no links. Then a path leads to the place its names spell, whatever
stands on the way: following it can fail, but it cannot end anywhere else. So the place of a path
(`Store.place`) depends on nothing but the home, and what a request touches can be told before it is
asked.

Whether a path can be followed does depend on what stands on the way, but only on directories. A
path that can be followed can therefore still be followed when files have come and gone and
directories have been added, as long as no directory has been lost.
-/

namespace Switchboard.Disk

/-- Where a piece of a path leads from a location. -/
def Location.enter (location : Location) (piece : String) : Location :=
  if piece = "" ∨ piece = "." then location
  else if piece = ".." then location.tail
  else piece :: location

def Location.walk (location : Location) (pieces : List String) : Location :=
  pieces.foldl Location.enter location

namespace Location

@[simp] theorem walk_nil (location : Location) : location.walk [] = location := rfl

@[simp] theorem walk_cons (location : Location) (piece : String) (rest : List String) :
    location.walk (piece :: rest) = (location.enter piece).walk rest := rfl

theorem walk_append (location : Location) (pieces more : List String) :
    location.walk (pieces ++ more) = (location.walk pieces).walk more :=
  List.foldl_append

@[simp] theorem enter_empty (location : Location) : location.enter "" = location := rfl

@[simp] theorem enter_dot (location : Location) : location.enter "." = location := rfl

theorem enter_of_isName {name : String} (h : Path.IsName name) (location : Location) :
    location.enter name = name :: location := by
  simp [enter, h.ne_empty, h.ne_dot, h.ne_dots]

end Location

namespace Store

/-- No links anywhere. -/
def Linkless (store : Store) : Prop :=
  ∀ location target, store.node? location ≠ some (.link target)

/-- Where a path leads by its names. -/
def place (store : Store) (path : Path) : Location :=
  (start store.home path.text).walk (piecesOf path.text)

theorem place_eq_of_home {store store' : Store} (h : store'.home = store.home) (path : Path) :
    store'.place path = store.place path := by
  rw [place, place, h]

/-! ### Joined paths -/

theorem piecesOf_eq (path : Path) : piecesOf path.text = path.pieces.map String.ofList := rfl

theorem start_join (home : Location) (base : Path) {tail : String}
    (hrel : tail.toList.head? ≠ some '/') :
    start home (base.join tail).text = start home base.text := by
  unfold start
  rw [Path.toList_join hrel]
  cases hbase : base.text.toList with
  | nil =>
      have hempty : base.text = "" := by simpa using hbase
      simp [hempty, hrel]
  | cons c rest => simp

/-- A relative tail leads on from where the directory leads. -/
theorem place_join (store : Store) (base : Path) {tail : String}
    (hrel : tail.toList.head? ≠ some '/') :
    store.place (base.join tail) = (store.place base).walk (piecesOf tail) := by
  obtain ⟨front, hbase, hjoin⟩ := base.pieces_join hrel
  have hfront : store.place base = (start store.home base.text).walk (front.map String.ofList) := by
    rw [place, piecesOf_eq]
    rcases hbase with hbase | hbase
    · rw [hbase]
    · rw [hbase, List.map_append, Location.walk_append]
      rfl
  rw [hfront, place, start_join _ _ hrel, piecesOf_eq, hjoin, List.map_append, Location.walk_append]
  rfl

theorem place_join_name (store : Store) (base : Path) {name : String} (h : Path.IsName name) :
    store.place (base.join name) = name :: store.place base := by
  have hpieces : piecesOf name = [name] := by
    rw [piecesOf, h.splitOn, List.map_singleton, String.ofList_toList]
  rw [place_join _ _ h.head?_ne, hpieces, Location.walk_cons, Location.enter_of_isName h,
    Location.walk_nil]

/-! ### Following paths -/

/-- What following pieces comes to if it leads to the place that they spell. -/
def Reach.IsAt (location : Location) : Reach → Prop
  | .node found => found = location
  | .unused directory name => name :: directory = location
  | .link _ _ _ => False

/-- The path goes on behind the piece: it is idle, leads up, or names something that is no link. -/
inductive Passes (store : Store) (location : Location) : String → Prop
  | idle {piece : String} (hidle : piece = "" ∨ piece = ".") : Passes store location piece
  | up : Passes store location ".."
  | name {piece : String} {node : Node} (hname : ¬ (piece = "" ∨ piece = ".")) (hup : piece ≠ "..")
      (hlimit : piece.utf8ByteSize ≤ nameLimit)
      (hnode : store.node? (piece :: location) = some node) (hlink : ∀ target, node ≠ .link target) :
      Passes store location piece

variable {store store' : Store} {location : Location} {piece : String} {rest : List String}

theorem advance_of_passes (hdirectory : store.node? location = some .directory)
    (h : store.Passes location piece) (rest : List String) :
    store.advance location (piece :: rest) = store.advance (location.enter piece) rest := by
  rw [advance, if_neg (fun hne => hne hdirectory), Location.enter]
  cases h with
  | idle hidle => rw [if_pos hidle, if_pos hidle]
  | up => rfl
  | @name _ node hname hup hlimit hnode hlink =>
      rw [if_neg hname, if_neg hup, if_neg hname, if_neg hup, if_neg (Nat.not_lt.2 hlimit), hnode]
      cases node with
      | link target => exact absurd rfl (hlink target)
      | file content => rfl
      | directory => rfl

/-- Everything the first of some pieces can come to, if it is not refused. -/
theorem advance_cases {reach : Reach}
    (h : store.advance location (piece :: rest) = .ok reach) :
    store.node? location = some .directory ∧
      (store.Passes location piece ∧ store.advance (location.enter piece) rest = .ok reach ∨
        rest = [] ∧ reach = .unused location piece ∧ location.enter piece = piece :: location ∨
        ∃ target, store.node? (piece :: location) = some (.link target) ∧
          reach = .link location target rest) := by
  rw [advance] at h
  split at h
  · cases h
  · next hdirectory =>
    refine ⟨Classical.not_not.1 hdirectory, ?_⟩
    split at h
    · next hidle => exact .inl ⟨.idle hidle, by rw [Location.enter, if_pos hidle]; exact h⟩
    · next hidle =>
      split at h
      · next hup =>
        subst hup
        exact .inl ⟨.up, h⟩
      · next hup =>
        have henter : location.enter piece = piece :: location := by
          rw [Location.enter, if_neg hidle, if_neg hup]
        split at h
        · cases h
        · next hlimit =>
          split at h
          · split at h
            · next hrest =>
              cases h
              exact .inr (.inl ⟨List.isEmpty_iff.1 hrest, rfl, henter⟩)
            · cases h
          · next target hlink =>
            cases h
            exact .inr (.inr ⟨target, hlink, rfl⟩)
          · next node hlink hnode =>
            refine .inl ⟨.name hidle hup (Nat.not_lt.1 hlimit) hnode ?_, henter ▸ h⟩
            rintro target rfl
            exact hlink target rfl

theorem isAt_of_advance (h : store.Linkless) {pieces : List String} {reach : Reach}
    (hreach : store.advance location pieces = .ok reach) : reach.IsAt (location.walk pieces) := by
  induction pieces generalizing location with
  | nil =>
      cases hreach
      rfl
  | cons piece rest ih =>
      rw [Location.walk_cons]
      obtain ⟨-, ⟨-, hrest⟩ | ⟨rfl, rfl, henter⟩ | ⟨target, hlink, -⟩⟩ := advance_cases hreach
      · exact ih hrest
      · exact henter.symm
      · exact absurd hlink (h _ target)

/-- Without links there is only one leg. -/
theorem follow_eq_advance (h : store.Linkless) (legs : Nat) (location : Location)
    (pieces : List String) : store.follow (legs + 1) location pieces = store.advance location pieces := by
  rw [follow]
  split
  · next hreach => exact (isAt_of_advance h hreach).elim
  · rfl

/-- A path followed through directories up to a point goes on from there. -/
theorem advance_append_of_dot {directory : Location} {pieces : List String}
    (h : store.advance location (pieces ++ ["."]) = .ok (.node directory)) (more : List String) :
    store.advance location (pieces ++ more) = store.advance directory more ∧
      store.node? directory = some .directory := by
  induction pieces generalizing location with
  | nil =>
      obtain ⟨hdirectory, ⟨-, hend⟩ | ⟨-, hend, -⟩ | ⟨target, -, hend⟩⟩ := advance_cases h
      · cases hend
        exact ⟨rfl, hdirectory⟩
      · cases hend
      · cases hend
  | cons piece rest ih =>
      obtain ⟨hdirectory, ⟨hpasses, hrest⟩ | ⟨hnil, -⟩ | ⟨target, -, hend⟩⟩ := advance_cases h
      · rw [List.cons_append, advance_of_passes hdirectory hpasses]
        exact ih hrest
      · simp at hnil
      · cases hend

/-- Nothing that was a directory has become anything else. -/
def KeepsDirectories (store store' : Store) : Prop :=
  ∀ location, store.node? location = some .directory → store'.node? location = some .directory

theorem KeepsDirectories.refl (store : Store) : store.KeepsDirectories store :=
  fun _ h => h

theorem KeepsDirectories.trans {store'' : Store} (h : store.KeepsDirectories store')
    (h' : store'.KeepsDirectories store'') : store.KeepsDirectories store'' :=
  fun location hdirectory => h' location (h location hdirectory)

/-- A path that can be followed can still be followed if what it leads to is still there. -/
theorem advance_of_keepsDirectories (h : store.KeepsDirectories store')
    (hlinkless : store'.Linkless) {target : Location} {pieces : List String}
    (hadvance : store.advance location pieces = .ok (.node target))
    (htarget : store'.node? target ≠ none) :
    store'.advance location pieces = .ok (.node target) := by
  induction pieces generalizing location with
  | nil => exact hadvance
  | cons piece rest ih =>
      obtain ⟨hdirectory, ⟨hpasses, hrest⟩ | ⟨-, hend, -⟩ | ⟨link, -, hend⟩⟩ :=
        advance_cases hadvance
      · have hpasses' : store'.Passes location piece := by
          cases hpasses with
          | idle hidle => exact .idle hidle
          | up => exact .up
          | name hname hup hlimit hnode hlink =>
              -- What stands here is on the way, and so a directory, or else it is the target.
              have hsome : store'.node? (piece :: location) ≠ none := by
                have henter : location.enter piece = piece :: location := by
                  rw [Location.enter, if_neg hname, if_neg hup]
                rw [henter] at hrest
                cases rest with
                | nil =>
                    cases hrest
                    exact htarget
                | cons next more => simp [h _ (advance_cases hrest).1]
              obtain ⟨found, hfound⟩ := Option.ne_none_iff_exists'.1 hsome
              refine .name hname hup hlimit hfound ?_
              rintro link rfl
              exact hlinkless _ link hfound
        rw [advance_of_passes (h location hdirectory) hpasses']
        exact ih hrest
      · cases hend
      · cases hend

theorem locate_eq_ok_iff (h : store.Linkless) {path : Path} {location : Location} :
    store.locate path = .ok location ↔ checkPath path = .ok () ∧
      store.advance (start store.home path.text) (piecesOf path.text) = .ok (.node location) := by
  unfold locate reach
  rw [follow_eq_advance h]
  cases checkPath path with
  | error cause => simp [bind, Except.bind]
  | ok value =>
      cases store.advance (start store.home path.text) (piecesOf path.text) with
      | error cause => simp [bind, Except.bind]
      | ok reached => cases reached <;> simp [bind, Except.bind]

theorem locate_eq_place (h : store.Linkless) {path : Path} {location : Location}
    (hlocate : store.locate path = .ok location) : location = store.place path :=
  isAt_of_advance h ((locate_eq_ok_iff h).1 hlocate).2

theorem locate_of_keepsDirectories (hhome : store'.home = store.home)
    (h : store.KeepsDirectories store') (hlinkless : store.Linkless) (hlinkless' : store'.Linkless)
    {path : Path} {location : Location} (hlocate : store.locate path = .ok location)
    (htarget : store'.node? location ≠ none) : store'.locate path = .ok location := by
  obtain ⟨hcheck, hadvance⟩ := (locate_eq_ok_iff hlinkless).1 hlocate
  rw [locate_eq_ok_iff hlinkless', hhome]
  exact ⟨hcheck, advance_of_keepsDirectories h hlinkless' hadvance htarget⟩

/-! ### The entry a path names -/

theorem locateEntry_eq_ok_iff (h : store.Linkless) {path : Path}
    {directory : Location} {name : String} :
    store.locateEntry path = .ok (directory, name) ↔ checkPath path = .ok () ∧
      ∃ above, trimPieces (piecesOf path.text).reverse = name :: above ∧
        store.advance (start store.home path.text) (above.reverse ++ ["."]) =
          .ok (.node directory) ∧
        name ≠ "." ∧ name ≠ ".." ∧ name.utf8ByteSize ≤ nameLimit := by
  unfold locateEntry
  cases checkPath path with
  | error cause => simp [bind, Except.bind]
  | ok value =>
      cases htrim : trimPieces (piecesOf path.text).reverse with
      | nil => simp [bind, Except.bind]
      | cons found above =>
          simp only [follow_eq_advance h, bind, Except.bind, true_and, List.cons.injEq]
          constructor
          · intro hentry
            split at hentry
            · cases hentry
            · next reached hadvance =>
              split at hentry
              · split at hentry
                · cases hentry
                · next hdots =>
                  split at hentry
                  · cases hentry
                  · next hlimit =>
                    cases hentry
                    rw [not_or] at hdots
                    exact ⟨above, ⟨rfl, rfl⟩, hadvance, hdots.1, hdots.2, Nat.not_lt.1 hlimit⟩
              · cases hentry
              · cases hentry
          · rintro ⟨_, ⟨rfl, rfl⟩, hadvance, hdot, hdots, hlimit⟩
            simp [hadvance, hdot, hdots, Nat.not_lt.2 hlimit]

theorem walk_of_forall_isEmpty {pieces : List String} (h : ∀ piece ∈ pieces, piece.isEmpty)
    (location : Location) : location.walk pieces = location := by
  induction pieces with
  | nil => rfl
  | cons piece rest ih =>
      have hempty : piece = "" := by simpa using h piece List.mem_cons_self
      rw [Location.walk_cons, hempty, Location.enter_empty]
      exact ih fun other hother => h other (List.mem_cons_of_mem _ hother)

theorem trimPieces_eq_cons {reversed above : List String} {name : String}
    (h : trimPieces reversed = name :: above) :
    name ≠ "" ∧ ∃ empty, reversed = empty ++ name :: above ∧ ∀ piece ∈ empty, piece.isEmpty := by
  have hname : ¬ name.isEmpty = true := by
    have hhead := List.head?_dropWhile_not (·.isEmpty) reversed
    rw [show reversed.dropWhile (·.isEmpty) = name :: above from h] at hhead
    simpa using hhead
  refine ⟨fun heq => hname (by simp [heq]), reversed.takeWhile (·.isEmpty), ?_, ?_⟩
  · rw [← h, trimPieces, List.takeWhile_append_dropWhile]
  · exact fun piece hpiece => List.all_eq_true.1 List.all_takeWhile piece hpiece

/-- The entry a path names is told by the pieces of the path: the name stands last but for empty ones,
and what is in front of it leads to the directory. -/
theorem pieces_of_locateEntry (h : store.Linkless) {path : Path} {directory : Location}
    {name : String} (hentry : store.locateEntry path = .ok (directory, name)) :
    Path.IsName name ∧ ∃ front empty, piecesOf path.text = front ++ name :: empty ∧
      (∀ piece ∈ empty, piece.isEmpty) ∧ (start store.home path.text).walk front = directory := by
  obtain ⟨-, above, htrim, hadvance, hdot, hdots, -⟩ := (locateEntry_eq_ok_iff h).1 hentry
  obtain ⟨hname, empty, hreversed, hempty⟩ := trimPieces_eq_cons htrim
  have hpieces : piecesOf path.text = above.reverse ++ (name :: empty.reverse) := by
    rw [← List.reverse_reverse (piecesOf path.text), hreversed]
    simp
  have hslash : '/' ∉ name.toList := by
    have hmem : name ∈ piecesOf path.text := by simp [hpieces]
    obtain ⟨piece, hpiece, rfl⟩ := List.mem_map.1 hmem
    simpa using Path.not_mem_of_mem_splitOn hpiece
  have hat := isAt_of_advance h hadvance
  rw [Location.walk_append, Location.walk_cons, Location.enter_dot, Location.walk_nil] at hat
  exact ⟨⟨hname, hslash, hdot, hdots⟩, above.reverse, empty.reverse, hpieces,
    fun piece hpiece => hempty piece (List.mem_reverse.1 hpiece), hat.symm⟩

/-- The entry a path names stands at the place of the path. -/
theorem place_of_locateEntry (h : store.Linkless) {path : Path} {directory : Location}
    {name : String} (hentry : store.locateEntry path = .ok (directory, name)) :
    store.place path = name :: directory := by
  obtain ⟨hname, front, empty, hpieces, hempty, hwalk⟩ := pieces_of_locateEntry h hentry
  rw [place, hpieces, Location.walk_append, hwalk, Location.walk_cons,
    Location.enter_of_isName hname]
  exact walk_of_forall_isEmpty hempty _

theorem locateEntry_of_keepsDirectories (hhome : store'.home = store.home)
    (h : store.KeepsDirectories store') (hlinkless : store.Linkless) (hlinkless' : store'.Linkless)
    {path : Path} {directory : Location} {name : String}
    (hentry : store.locateEntry path = .ok (directory, name)) :
    store'.locateEntry path = .ok (directory, name) := by
  obtain ⟨hcheck, above, htrim, hadvance, hname⟩ := (locateEntry_eq_ok_iff hlinkless).1 hentry
  rw [locateEntry_eq_ok_iff hlinkless', hhome]
  refine ⟨hcheck, above, htrim, advance_of_keepsDirectories h hlinkless' hadvance ?_, hname⟩
  simp [h directory (advance_append_of_dot hadvance []).2]

theorem trimPieces_join {base : Path} {name : String} (hname : Path.IsName name) :
    trimPieces (piecesOf (base.join name).text).reverse =
      name :: (base.front.map String.ofList).reverse := by
  have hreversed : (piecesOf (base.join name).text).reverse =
      name :: (base.front.map String.ofList).reverse := by
    rw [piecesOf_eq, Path.pieces_join_eq _ hname.head?_ne, hname.splitOn]
    simp
  rw [hreversed, trimPieces, List.dropWhile_cons_of_neg (by simpa using hname.ne_empty)]

/-- Joined to a directory, a name is the entry that the path names. -/
theorem locateEntry_join_iff (h : store.Linkless) {base : Path} {name : String}
    (hname : Path.IsName name) {directory : Location} {found : String} :
    store.locateEntry (base.join name) = .ok (directory, found) ↔
      found = name ∧ checkPath (base.join name) = .ok () ∧ name.utf8ByteSize ≤ nameLimit ∧
        store.advance (start store.home base.text) (base.front.map String.ofList ++ ["."]) =
          .ok (.node directory) := by
  rw [locateEntry_eq_ok_iff h, trimPieces_join hname, start_join _ _ hname.head?_ne]
  constructor
  · rintro ⟨hcheck, above, hcons, hadvance, -, -, hlimit⟩
    obtain ⟨rfl, rfl⟩ := List.cons.inj hcons
    rw [List.reverse_reverse] at hadvance
    exact ⟨rfl, hcheck, hlimit, hadvance⟩
  · rintro ⟨rfl, hcheck, hlimit, hadvance⟩
    refine ⟨hcheck, _, rfl, ?_, hname.ne_dot, hname.ne_dots, hlimit⟩
    rw [List.reverse_reverse]
    exact hadvance

/-- An entry can be reached once there is something under its name. -/
theorem locate_of_locateEntry (h : store.Linkless) {base : Path} {name : String}
    (hname : Path.IsName name) {entry : Location × String}
    (hentry : store.locateEntry (base.join name) = .ok entry)
    {node : Node} (hnode : store.node? (entry.2 :: entry.1) = some node) :
    store.locate (base.join name) = .ok (entry.2 :: entry.1) := by
  obtain ⟨directory, found⟩ := entry
  obtain ⟨rfl, hcheck, hlimit, hadvance⟩ := (locateEntry_join_iff h hname).1 hentry
  obtain ⟨happend, hdirectory⟩ := advance_append_of_dot hadvance [found]
  have hpasses : store.Passes directory found := by
    refine .name (by simp [hname.ne_empty, hname.ne_dot]) hname.ne_dots hlimit hnode ?_
    rintro target rfl
    exact h _ target hnode
  rw [locate_eq_ok_iff h, start_join _ _ hname.head?_ne, piecesOf_eq,
    Path.pieces_join_eq _ hname.head?_ne, hname.splitOn, List.map_append, List.map_singleton,
    String.ofList_toList, happend, advance_of_passes hdirectory hpasses,
    Location.enter_of_isName hname]
  exact ⟨hcheck, rfl⟩

theorem checkPath_eq_ok_iff {path : Path} : checkPath path = .ok () ↔
    '\x00' ∉ path.text.toList ∧ path.text ≠ "" ∧ path.text.utf8ByteSize ≤ pathLimit := by
  unfold checkPath
  split
  · next hnul => simpa using fun h => absurd (by simpa using hnul) h
  · next hnul =>
    split
    · next hempty => simp [hempty]
    · next hempty =>
      split
      · next hlimit => simp [Nat.not_le.2 hlimit]
      · next hlimit =>
        simpa [hempty, Nat.not_lt.1 hlimit] using hnul

theorem checkPath_of_join {base : Path} {tail : String} (hrel : tail.toList.head? ≠ some '/')
    (hne : base.text ≠ "") (h : checkPath (base.join tail) = .ok ()) : checkPath base = .ok () := by
  obtain ⟨hnul, -, hlimit⟩ := checkPath_eq_ok_iff.1 h
  have hsize : base.text.utf8ByteSize ≤ (base.join tail).text.utf8ByteSize := by
    unfold Path.join
    rw [if_neg hrel]
    split
    · simp only [String.utf8ByteSize_append]
      omega
    · simp only [String.utf8ByteSize_append]
      omega
  rw [Path.toList_join hrel] at hnul
  refine checkPath_eq_ok_iff.2 ⟨fun hmem => hnul ?_, hne, Nat.le_trans hsize hlimit⟩
  exact List.mem_append_left _ (List.mem_append_left _ hmem)

/-- The directory of an entry that can be reached is where the path in front of the name leads. -/
theorem locate_base_of_locateEntry (h : store.Linkless) {base : Path} (hne : base.text ≠ "")
    {name : String} (hname : Path.IsName name) {directory : Location} {found : String}
    (hentry : store.locateEntry (base.join name) = .ok (directory, found)) :
    store.locate base = .ok directory ∧ store.node? directory = some .directory := by
  obtain ⟨-, hcheck, -, hadvance⟩ := (locateEntry_join_iff h hname).1 hentry
  obtain ⟨hfront, hdirectory⟩ := advance_append_of_dot hadvance []
  obtain ⟨hidle, -⟩ := advance_append_of_dot hadvance [""]
  refine ⟨(locate_eq_ok_iff h).2 ⟨checkPath_of_join hname.head?_ne hne hcheck, ?_⟩, hdirectory⟩
  rcases base.pieces_eq_front with hbase | hbase
  · rw [piecesOf_eq, hbase, ← List.append_nil (base.front.map _), hfront]
    rfl
  · rw [piecesOf_eq, hbase, List.map_append, List.map_singleton, String.ofList_nil, hidle,
      advance_of_passes hdirectory (.idle (.inl rfl))]
    rfl

end Store

end Switchboard.Disk
