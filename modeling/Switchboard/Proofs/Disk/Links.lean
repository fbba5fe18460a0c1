import Switchboard.Proofs.Disk.Changes

/-!
Where paths lead when there are links. Then the place of a path is no longer told from its names, and it
can change with what stands on the way. But only directories and links are ever passed: a file ends a path,
and so does a name that is not in use. So two stores that have the same directories and the same links
(`Store.SameWays`) take a path to the same place, unless following it stops where a file stands in one of
them and not in the other (`Store.StopsAt`). A path that leads to a directory leads there in both.

A store that has lost some files and nothing else has the same ways. What could not be found in it before
cannot be found now.
-/

namespace Switchboard.Disk.Store

variable {store store' : Store} {path : Path} {location : Location}

/-! ### Stores with the same ways -/

/-- The same directories and links stand at the same places. -/
structure SameWays (store store' : Store) : Prop where
  home : store'.home = store.home
  directory : ∀ location,
    store'.node? location = some .directory ↔ store.node? location = some .directory
  link : ∀ location target,
    store'.node? location = some (.link target) ↔ store.node? location = some (.link target)

theorem SameWays.symm (h : store.SameWays store') : store'.SameWays store :=
  ⟨h.home.symm, fun location => (h.directory location).symm,
    fun location target => (h.link location target).symm⟩

/-- How following a path can end at a location with neither a directory nor a link. -/
inductive StopsAt (store : Store) (found : Location) : Except Cause Reach → Prop
  | file {content : Content} (hfile : store.node? found = some (.file content)) :
      StopsAt store found (.ok (.node found))
  | beyond {content : Content} (hfile : store.node? found = some (.file content)) :
      StopsAt store found (.error .notDirectory)
  | unused {directory : Location} {name : String} (hnone : store.node? found = none) :
      StopsAt store found (.ok (.unused directory name))
  | missing (hnone : store.node? found = none) : StopsAt store found (.error .missing)

/-- What a name comes to that is looked up in a directory. -/
def lookUp (store : Store) (location : Location) (name : String) (rest : List String) :
    Except Cause Reach :=
  match store.node? (name :: location) with
  | none => if rest.isEmpty then .ok (.unused location name) else .error .missing
  | some (.link target) => .ok (.link location target rest)
  | some _ => store.advance (name :: location) rest

/-- In whatever store a directory is, a piece leads on from it without being looked up, or it is refused,
or it is a name to be looked up. -/
theorem advance_piece (location : Location) (piece : String) :
    (∃ next, ∀ (store : Store) rest, store.node? location = some .directory →
      store.advance location (piece :: rest) = store.advance next rest) ∨
    (∃ cause, ∀ (store : Store) rest, store.node? location = some .directory →
      store.advance location (piece :: rest) = .error cause) ∨
    ∀ (store : Store) rest, store.node? location = some .directory →
      store.advance location (piece :: rest) = store.lookUp location piece rest := by
  by_cases hidle : piece = "" ∨ piece = "."
  · refine .inl ⟨location, fun store rest hdirectory => ?_⟩
    rw [advance, if_neg (not_not_intro hdirectory), if_pos hidle]
  by_cases hup : piece = ".."
  · refine .inl ⟨location.tail, fun store rest hdirectory => ?_⟩
    rw [advance, if_neg (not_not_intro hdirectory), if_neg hidle, if_pos hup]
  right
  by_cases hlimit : nameLimit < piece.utf8ByteSize
  · refine .inl ⟨.nameTooLong, fun store rest hdirectory => ?_⟩
    rw [advance, if_neg (not_not_intro hdirectory), if_neg hidle, if_neg hup, if_pos hlimit]
  · refine .inr fun store rest hdirectory => ?_
    rw [advance, if_neg (not_not_intro hdirectory), if_neg hidle, if_neg hup, if_neg hlimit]
    rfl

theorem advance_of_not_directory (h : store.node? location ≠ some .directory) (piece : String)
    (rest : List String) : store.advance location (piece :: rest) = .error .notDirectory := by
  rw [advance, if_pos h]

/-- The second store takes pieces where the first one does, or the first one stops at a location with
another node. -/
theorem advance_eq_or_stopsAt (h : store.SameWays store') (location : Location)
    (pieces : List String) :
    store'.advance location pieces = store.advance location pieces ∨
      ∃ found, store'.node? found ≠ store.node? found ∧
        store.StopsAt found (store.advance location pieces) := by
  induction pieces generalizing location with
  | nil => exact .inl rfl
  | cons piece rest ih =>
      by_cases hdirectory : store.node? location = some .directory
      case neg =>
        left
        rw [advance_of_not_directory hdirectory,
          advance_of_not_directory (mt (h.directory location).1 hdirectory)]
      have hdirectory' := (h.directory location).2 hdirectory
      obtain ⟨next, hnext⟩ | ⟨cause, hcause⟩ | hname := advance_piece location piece
      · rw [hnext store rest hdirectory, hnext store' rest hdirectory']
        exact ih next
      · left
        rw [hcause store rest hdirectory, hcause store' rest hdirectory']
      rw [hname store rest hdirectory, hname store' rest hdirectory', lookUp, lookUp]
      -- A directory or a link has the same counterpart, and so only two cases are not alike.
      cases hnode : store.node? (piece :: location) with
      | none =>
          cases hnode' : store'.node? (piece :: location) with
          | none => exact .inl rfl
          | some node =>
              right
              refine ⟨piece :: location, by simp [hnode, hnode'], ?_⟩
              dsimp only
              split
              · exact .unused hnode
              · exact .missing hnode
      | some node =>
          cases node with
          | directory =>
              rw [(h.directory _).2 hnode]
              exact ih (piece :: location)
          | link target =>
              rw [(h.link _ _).2 hnode]
              exact .inl rfl
          | file content =>
              cases hnode' : store'.node? (piece :: location) with
              | none =>
                  right
                  refine ⟨piece :: location, by simp [hnode, hnode'], ?_⟩
                  cases rest with
                  | nil => exact .file hnode
                  | cons next more =>
                      rw [advance_of_not_directory (by simp [hnode])]
                      exact .beyond hnode
              | some node' =>
                  cases node' with
                  | file content' => exact ih _
                  | directory =>
                      rw [(h.directory _).1 hnode'] at hnode
                      cases hnode
                  | link target =>
                      rw [(h.link _ _).1 hnode'] at hnode
                      cases hnode

theorem follow_eq_or_stopsAt (h : store.SameWays store') (legs : Nat) (location : Location)
    (pieces : List String) :
    store'.follow legs location pieces = store.follow legs location pieces ∨
      ∃ found, store'.node? found ≠ store.node? found ∧
        store.StopsAt found (store.follow legs location pieces) := by
  induction legs generalizing location pieces with
  | zero => exact .inl rfl
  | succ legs ih =>
      rw [follow, follow]
      rcases advance_eq_or_stopsAt h location pieces with heq | ⟨found, hne, hstops⟩
      · rw [heq]
        split
        · exact ih _ _
        · exact .inl rfl
      · refine .inr ⟨found, hne, ?_⟩
        cases hresult : store.advance location pieces <;> rw [hresult] at hstops <;> cases hstops
        · exact .beyond ‹_›
        · exact .missing ‹_›
        · exact .file ‹_›
        · exact .unused ‹_›

theorem reach_eq_or_stopsAt (h : store.SameWays store') (path : Path) :
    store'.reach path = store.reach path ∨
      ∃ found, store'.node? found ≠ store.node? found ∧ store.StopsAt found (store.reach path) := by
  rw [reach, reach, h.home]
  cases checkPath path with
  | error cause => exact .inl rfl
  | ok _ => exact follow_eq_or_stopsAt h _ _ _

theorem locate_eq_ok_iff_reach : store.locate path = .ok location ↔
    store.reach path = .ok (.node location) := by
  rw [locate]
  cases store.reach path with
  | error cause => simp [bind, Except.bind]
  | ok reached => cases reached <;> simp [bind, Except.bind]

/-- The path leads to the directory at a location. -/
structure LeadsTo (store : Store) (path : Path) (location : Location) : Prop where
  locate : store.locate path = .ok location
  node : store.node? location = some .directory

theorem LeadsTo.unique {other : Location} (h : store.LeadsTo path location)
    (hother : store.LeadsTo path other) : other = location :=
  Except.ok.inj (hother.locate.symm.trans h.locate)

/-- A path to a directory leads there in every store with the same ways. -/
theorem SameWays.leadsTo (h : store.SameWays store') (hpath : store.LeadsTo path location) :
    store'.LeadsTo path location := by
  refine ⟨?_, (h.directory location).2 hpath.node⟩
  have hreach := locate_eq_ok_iff_reach.1 hpath.locate
  rw [locate_eq_ok_iff_reach, ← hreach]
  rcases reach_eq_or_stopsAt h path with heq | ⟨found, -, hstops⟩
  · exact heq
  · rw [hreach] at hstops
    cases hstops with
    | file hfile =>
        rw [hpath.node] at hfile
        cases hfile

theorem SameWays.leadsTo_iff (h : store.SameWays store') :
    store'.LeadsTo path location ↔ store.LeadsTo path location :=
  ⟨h.symm.leadsTo, h.leadsTo⟩

/-! ### Listings -/

/-- A listing is that of the directory that the path leads to. -/
theorem list_eq_ok_iff {entries : List (String × Kind)} : store.list path = .ok entries ↔
    ∃ location, store.LeadsTo path location ∧
      entries = (store.children location).map fun (name, node) => (name, node.kind) := by
  rw [list]
  constructor
  · intro h
    obtain ⟨location, hlocate, hentries⟩ := Except.bind_eq_ok_iff.1 h
    split at hentries
    · next hnode =>
      cases hentries
      exact ⟨location, ⟨hlocate, hnode⟩, rfl⟩
    · cases hentries
    · cases hentries
  · rintro ⟨location, ⟨hlocate, hnode⟩, rfl⟩
    simp [hlocate, hnode, bind, Except.bind]

/-- Some files are gone, and nothing else has happened. -/
structure LosesFiles (store store' : Store) : Prop where
  home : store'.home = store.home
  node : ∀ location, store'.node? location = store.node? location ∨
    store'.node? location = none ∧ ∃ bytes, store.node? location = some (.file (.regular bytes))

theorem LosesFiles.trans {store'' : Store} (h : store.LosesFiles store')
    (h' : store'.LosesFiles store'') : store.LosesFiles store'' where
  home := h'.home.trans h.home
  node location := by
    rcases h'.node location with heq | ⟨hnone, bytes, hfile⟩
    · rw [heq]
      exact h.node location
    · rcases h.node location with heq | ⟨hnone', -⟩
      · exact .inr ⟨hnone, bytes, heq ▸ hfile⟩
      · rw [hnone'] at hfile
        cases hfile

theorem LosesFiles.sameWays (h : store.LosesFiles store') : store.SameWays store' where
  home := h.home
  directory location := by
    rcases h.node location with heq | ⟨hnone, bytes, hfile⟩
    · rw [heq]
    · simp [hnone, hfile]
  link location target := by
    rcases h.node location with heq | ⟨hnone, bytes, hfile⟩
    · rw [heq]
    · simp [hnone, hfile]

/-- A directory is missing if the path leads nowhere. -/
theorem list_eq_missing_iff : store.list path = .error .missing ↔
    store.locate path = .error .missing ∨
      ∃ location, store.locate path = .ok location ∧ store.node? location = none := by
  rw [list]
  cases store.locate path with
  | error cause => simp [bind, Except.bind]
  | ok location =>
      cases hnode : store.node? location with
      | none => simp [bind, Except.bind, hnode]
      | some node => cases node <;> simp [bind, Except.bind, hnode]

/-- A directory that is missing does not appear when files are lost. -/
theorem LosesFiles.list_eq_missing (h : store.LosesFiles store')
    (hmissing : store.list path = .error .missing) : store'.list path = .error .missing := by
  rw [list_eq_missing_iff] at hmissing ⊢
  rcases reach_eq_or_stopsAt h.sameWays path with heq | ⟨found, hne, hstops⟩
  · have hlocate : store'.locate path = store.locate path := by rw [locate, locate, heq]
    rw [hlocate]
    refine hmissing.imp_right fun ⟨location, hlocate, hnone⟩ => ⟨location, hlocate, ?_⟩
    rcases h.node location with heq | ⟨hnone', -⟩
    · rw [heq, hnone]
    · exact hnone'
  · -- The path stops at a file, and so the directory was not missing.
    obtain ⟨bytes, hfile⟩ : ∃ bytes, store.node? found = some (.file (.regular bytes)) := by
      rcases h.node found with heq | ⟨-, hfile⟩
      · exact absurd heq hne
      · exact hfile
    rcases hmissing with hmissing | ⟨location, hlocate, hnone⟩
    · rw [locate] at hmissing
      generalize store.reach path = result at hstops hmissing
      cases hstops with
      | file _ => cases hmissing
      | beyond _ => cases hmissing
      | unused hnone => simp [hfile] at hnone
      | missing hnone => simp [hfile] at hnone
    · rw [locate_eq_ok_iff_reach.1 hlocate] at hstops
      cases hstops with
      | file hfound => simp [hfound] at hnone

/-! ### Stores without some locations -/

/-- A store like a file system: each location is listed once, under names. There may be links. -/
structure Sound (store : Store) : Prop where
  listedOnce : store.ListedOnce
  isName : ∀ name above, store.node? (name :: above) ≠ none → Path.IsName name

/-- The store without what stands at some locations. -/
def without (store : Store) (gone : List Location) : Store :=
  { store with nodes := store.nodes.filter (·.1 ∉ gone) }

@[simp] theorem without_nil (store : Store) : store.without [] = store := by
  simp [without]

theorem without_without (store : Store) (gone more : List Location) :
    (store.without gone).without more = store.without (gone ++ more) := by
  simp [without, List.filter_filter, Bool.and_comm]

theorem without_erase (store : Store) (location : Location) (gone : List Location) :
    (store.erase location).without gone = store.without (location :: gone) := by
  have herase : store.erase location = store.without [location] := by
    simp [erase, without, bne, beq_eq_decide]
  rw [herase, without_without, List.singleton_append]

variable {gone : List Location}

theorem node?_without_of_not_mem (h : location ∉ gone) :
    (store.without gone).node? location = store.node? location := by
  induction gone generalizing store with
  | nil => rw [without_nil]
  | cons first rest ih =>
      rw [List.mem_cons, not_or] at h
      rw [← without_erase, ih h.2, node?_erase_of_ne h.1]

theorem node?_without_of_mem (hne : location ≠ []) (h : location ∈ gone) :
    (store.without gone).node? location = none := by
  cases location with
  | nil => exact absurd rfl hne
  | cons name above =>
      rw [node?, List.lookup_eq_none_iff]
      · intro entry hentry
        simp only [without, List.mem_filter, decide_eq_true_eq] at hentry
        rw [bne_iff_ne]
        exact fun heq => hentry.2 (heq ▸ h)
      · exact List.cons_ne_nil _ _

theorem Sound.without (h : store.Sound) (gone : List Location) : (store.without gone).Sound where
  listedOnce := List.Nodup.sublist (List.filter_sublist.map _) h.listedOnce
  isName name above hnode := by
    by_cases hmem : name :: above ∈ gone
    · exact absurd (node?_without_of_mem (List.cons_ne_nil _ _) hmem) hnode
    · rw [node?_without_of_not_mem hmem] at hnode
      exact h.isName name above hnode

theorem losesFiles_without
    (h : ∀ location ∈ gone, ∃ bytes, store.node? location = some (.file (.regular bytes))) :
    store.LosesFiles (store.without gone) where
  home := rfl
  node location := by
    by_cases hmem : location ∈ gone
    · obtain ⟨bytes, hfile⟩ := h location hmem
      have hne : location ≠ [] := by
        rintro rfl
        cases hfile
      exact .inr ⟨node?_without_of_mem hne hmem, bytes, hfile⟩
    · exact .inl (node?_without_of_not_mem hmem)

/-! ### Entries of a directory -/

/-- Pieces that follow others are followed from where those lead. -/
theorem advance_pieces_append (location : Location) (pieces : List String) {more : List String}
    (hmore : more ≠ []) : store.advance location (pieces ++ more) =
      match store.advance location pieces with
      | .ok (.node found) => store.advance found more
      | .ok (.unused _ _) => .error .missing
      | .ok (.link directory target rest) => .ok (.link directory target (rest ++ more))
      | .error cause => .error cause := by
  induction pieces generalizing location with
  | nil => rfl
  | cons piece rest ih =>
      rw [List.cons_append]
      by_cases hdirectory : store.node? location = some .directory
      case neg => rw [advance_of_not_directory hdirectory, advance_of_not_directory hdirectory]
      obtain ⟨next, hnext⟩ | ⟨cause, hcause⟩ | hname := advance_piece location piece
      · rw [hnext _ _ hdirectory, hnext _ _ hdirectory]
        exact ih next
      · rw [hcause _ _ hdirectory, hcause _ _ hdirectory]
      · rw [hname _ _ hdirectory, hname _ _ hdirectory, lookUp, lookUp]
        cases store.node? (piece :: location) with
        | none => cases rest <;> simp [hmore]
        | some node =>
            cases node with
            | link target => rfl
            | file content => exact ih _
            | directory => exact ih _

/-- What a path comes to if a directory is asked for. -/
def Reach.enter (store : Store) : Reach → Except Cause Reach
  | .node location =>
    if store.node? location = some .directory then .ok (.node location) else .error .notDirectory
  | .unused _ _ => .error .missing
  | .link directory target rest => .ok (.link directory target rest)

/-- An idle piece at the end asks for a directory, whichever piece it is. -/
theorem follow_concat_idle {idle : String} (hidle : idle = "" ∨ idle = ".") (legs : Nat)
    (location : Location) (pieces : List String) : store.follow legs location (pieces ++ [idle]) =
      (store.follow legs location pieces).bind (Reach.enter store) := by
  induction legs generalizing location pieces with
  | zero => rfl
  | succ legs ih =>
      rw [follow, follow, advance_pieces_append location pieces (List.cons_ne_nil idle [])]
      cases store.advance location pieces with
      | error cause => rfl
      | ok reached =>
          cases reached with
          | unused directory name => rfl
          | link directory target rest =>
              dsimp only
              rw [← List.append_assoc, ih]
          | node found =>
              simp only [Except.bind, Reach.enter]
              by_cases hdirectory : store.node? found = some .directory
              · rw [if_pos hdirectory, advance, if_neg (not_not_intro hdirectory), if_pos hidle]
                rfl
              · rw [if_neg hdirectory, advance, if_pos hdirectory]

/-- The entry under a name in a directory is the one that the joined path names. -/
theorem LeadsTo.locateEntry_join {directory : Path} (h : store.LeadsTo directory location) {name : String}
    (hname : Path.IsName name) {entry : Location × String}
    (hentry : store.locateEntry (directory.join name) = .ok entry) : entry = (location, name) := by
  have hreach := locate_eq_ok_iff_reach.1 h.locate
  obtain ⟨_, -, hreach⟩ := Except.bind_eq_ok_iff.1 hreach
  have hfollow : store.follow (linkLimit + 1) (start store.home directory.text)
      (directory.front.map String.ofList ++ ["."]) = .ok (.node location) := by
    rw [follow_concat_idle (.inr rfl)]
    rcases directory.pieces_eq_front with hpieces | hpieces
    · rw [piecesOf_eq, hpieces] at hreach
      rw [hreach]
      simp [Except.bind, Reach.enter, h.node]
    · rw [piecesOf_eq, hpieces, List.map_append, List.map_singleton, String.ofList_nil,
        follow_concat_idle (.inl rfl)] at hreach
      exact hreach
  obtain ⟨_, -, hentry⟩ := Except.bind_eq_ok_iff.1 hentry
  rw [trimPieces_join hname, start_join _ _ hname.head?_ne] at hentry
  simp only [List.reverse_reverse, hfollow, bind, Except.bind, hname.ne_dot, hname.ne_dots, or_self,
    if_false] at hentry
  split at hentry
  · cases hentry
  · exact (Except.ok.inj hentry).symm

end Switchboard.Disk.Store
