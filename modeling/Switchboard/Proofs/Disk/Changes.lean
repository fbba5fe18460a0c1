import Switchboard.Proofs.Disk.Places
import Switchboard.Proofs.Mapping.Names

/-!
What requests do to a store without links. A granted request changes what stands at the places of its
paths and nothing else, so each of them has an equation for the store it leaves behind. From these
follows what no request ever does, whatever it is for (`Store.Continues`): move the home, make a
link, or turn a directory into anything else.
-/

namespace Switchboard.Disk

theorem Node.kind_eq_file_iff {node : Node} :
    node.kind = .file ↔ ∃ bytes, node = .file (.regular bytes) := by
  rcases node with (_ | _) | _ | _ <;> simp [kind]

theorem Node.kind_eq_directory_iff {node : Node} : node.kind = .directory ↔ node = .directory := by
  rcases node with (_ | _) | _ | _ <;> simp [kind]

/-- The bytes of a regular file. -/
def Node.bytes? : Node → Option ByteArray
  | .file (.regular bytes) => some bytes
  | .file .special | .directory | .link _ => none

theorem Node.bytes?_eq_some_iff {node : Node} {bytes : ByteArray} :
    node.bytes? = some bytes ↔ node = .file (.regular bytes) := by
  rcases node with (_ | _) | _ | _ <;> simp [bytes?]

namespace Store

variable {store store' : Store} {path : Path} {location : Location}

/-! ### Nodes and files -/

theorem node?_put (h : location ≠ []) (node : Node) (other : Location) :
    (store.put location node).node? other =
      if other = location then some node else store.node? other := by
  split
  · next heq => rw [heq, node?_put_self h]
  · next hne => rw [node?_put_of_ne hne]

theorem node?_erase (h : location ≠ []) (other : Location) :
    (store.erase location).node? other = if other = location then none else store.node? other := by
  split
  · next heq => rw [heq, node?_erase_self h]
  · next hne => rw [node?_erase_of_ne hne]

/-- The bytes of the regular file at a location, if there is one. -/
def file? (store : Store) (location : Location) : Option ByteArray :=
  (store.node? location).bind Node.bytes?

theorem file?_eq_some_iff {bytes : ByteArray} :
    store.file? location = some bytes ↔ store.node? location = some (.file (.regular bytes)) := by
  simp [file?, Option.bind_eq_some_iff, Node.bytes?_eq_some_iff]

theorem file?_eq_none_of_node? (h : store.node? location = none) : store.file? location = none := by
  rw [file?, h]
  rfl

theorem file?_put (h : location ≠ []) (node : Node) (other : Location) :
    (store.put location node).file? other =
      if other = location then node.bytes? else store.file? other := by
  rw [file?, node?_put h]
  split <;> rfl

theorem file?_erase (h : location ≠ []) (other : Location) :
    (store.erase location).file? other = if other = location then none else store.file? other := by
  rw [file?, node?_erase h]
  split <;> rfl

theorem ne_nil_of_node? {node : Node} (h : store.node? location = some node)
    (hne : node ≠ .directory) : location ≠ [] := by
  rintro rfl
  exact hne (Option.some.inj h).symm

theorem mem_nodes_of_node? {node : Node} (hne : location ≠ []) (h : store.node? location = some node) :
    (location, node) ∈ store.nodes := by
  cases location with
  | nil => exact absurd rfl hne
  | cons name above =>
      obtain ⟨before, after, hnodes, -⟩ := List.lookup_eq_some_iff.1 h
      rw [hnodes]
      simp

/-- Whether there are links can be told from the nodes that are listed. -/
theorem linkless_of_nodes (h : ∀ entry ∈ store.nodes, entry.2.kind ≠ .link) : store.Linkless :=
  fun _ _ hnode => h _ (mem_nodes_of_node? (ne_nil_of_node? hnode nofun) hnode) rfl

/-- Whether all that is there has names can be told from them as well. -/
theorem isName_of_nodes (h : ∀ entry ∈ store.nodes, ∀ name ∈ entry.1.head?, Path.IsName name)
    (name : String) (above : Location) (hnode : store.node? (name :: above) ≠ none) :
    Path.IsName name := by
  obtain ⟨node, hnode⟩ := Option.ne_none_iff_exists'.1 hnode
  exact h _ (mem_nodes_of_node? (List.cons_ne_nil name above) hnode) name rfl

/-! ### What no request does -/

/-- Each location is listed at most once. -/
def ListedOnce (store : Store) : Prop :=
  (store.nodes.map (·.1)).Nodup

/-- What remains true of a store whatever is asked of it. -/
structure Continues (store store' : Store) : Prop where
  home : store'.home = store.home
  linkless : store'.Linkless
  directories : store.KeepsDirectories store'
  listedOnce : store.ListedOnce → store'.ListedOnce

theorem Continues.refl (h : store.Linkless) : store.Continues store :=
  ⟨rfl, h, .refl store, id⟩

theorem Continues.trans {store'' : Store} (h : store.Continues store')
    (h' : store'.Continues store'') : store.Continues store'' :=
  ⟨h'.home.trans h.home, h'.linkless, h.directories.trans h'.directories,
    fun hlisted => h'.listedOnce (h.listedOnce hlisted)⟩

/-- The path leads to a directory, and that is where its names lead. -/
def HasDirectory (store : Store) (path : Path) : Prop :=
  store.locate path = .ok (store.place path) ∧ store.node? (store.place path) = some .directory

/-! Paths that can be followed can still be followed later. -/

namespace Continues

theorem place_eq (h : store.Continues store') (path : Path) : store'.place path = store.place path :=
  place_eq_of_home h.home path

theorem locate (hlinkless : store.Linkless) (h : store.Continues store')
    (hlocate : store.locate path = .ok location) (htarget : store'.node? location ≠ none) :
    store'.locate path = .ok location :=
  locate_of_keepsDirectories h.home h.directories hlinkless h.linkless hlocate htarget

theorem locateEntry (hlinkless : store.Linkless) (h : store.Continues store')
    (hentry : ∃ entry, store.locateEntry path = .ok entry) :
    ∃ entry, store'.locateEntry path = .ok entry := by
  obtain ⟨entry, hentry⟩ := hentry
  exact ⟨entry, locateEntry_of_keepsDirectories h.home h.directories hlinkless h.linkless hentry⟩

theorem hasDirectory (hlinkless : store.Linkless) (h : store.Continues store')
    (hdirectory : store.HasDirectory path) : store'.HasDirectory path := by
  obtain ⟨hlocate, hnode⟩ := hdirectory
  have hnode' := h.directories _ hnode
  rw [HasDirectory, h.place_eq]
  exact ⟨h.locate hlinkless hlocate (by simp [hnode']), hnode'⟩

end Continues

theorem ListedOnce.erase (h : store.ListedOnce) (location : Location) :
    (store.erase location).ListedOnce :=
  List.Nodup.sublist (List.filter_sublist.map _) h

theorem ListedOnce.put (h : store.ListedOnce) (location : Location) (node : Node) :
    (store.put location node).ListedOnce := by
  refine List.nodup_cons.2 ⟨fun hmem => ?_, h.erase location⟩
  obtain ⟨entry, hentry, heq⟩ := List.mem_map.1 hmem
  simp [Store.erase, heq] at hentry

theorem continues_put (hlinkless : store.Linkless) (h : location ≠ []) {node : Node}
    (hlink : ∀ target, node ≠ .link target)
    (hdirectory : store.node? location = some .directory → node = .directory) :
    store.Continues (store.put location node) where
  home := rfl
  linkless other target := by
    rw [node?_put h]
    split
    · exact fun heq => hlink target (Option.some.inj heq)
    · exact hlinkless other target
  directories other hother := by
    rw [node?_put h]
    split
    · next heq => rw [hdirectory (heq ▸ hother)]
    · exact hother
  listedOnce hlisted := hlisted.put location node

theorem continues_erase (hlinkless : store.Linkless) (h : location ≠ [])
    (hdirectory : store.node? location ≠ some .directory) :
    store.Continues (store.erase location) where
  home := rfl
  linkless other target := by
    rw [node?_erase h]
    split
    · simp
    · exact hlinkless other target
  directories other hother := by
    rw [node?_erase h, if_neg]
    · exact hother
    · rintro rfl
      exact hdirectory hother
  listedOnce hlisted := hlisted.erase location

/-! ### Listings -/

theorem children_sublist (store : Store) (location : Location) :
    ((store.children location).map fun (name, _) => name :: location).Sublist
      (store.nodes.map (·.1)) := by
  unfold children
  induction store.nodes with
  | nil => exact .slnil
  | cons entry rest ih =>
      rw [List.filterMap_cons, List.map_cons]
      split
      · exact ih.cons _
      · next child hchild =>
        split at hchild
        · next name above node =>
          split at hchild
          · next habove =>
            cases hchild
            rw [List.map_cons, habove]
            exact ih.cons_cons _
          · cases hchild
        · cases hchild

theorem ListedOnce.children (h : store.ListedOnce) (location : Location) :
    ((store.children location).map (·.1)).Nodup := by
  have hnodup := List.Nodup.sublist (children_sublist store location) h
  rw [show (fun (x : String × Node) => x.1 :: location) = (· :: location) ∘ (·.1) from rfl,
    ← List.map_map] at hnodup
  exact hnodup.of_map

theorem mem_children {name : String} {node : Node} (h : store.node? (name :: location) = some node) :
    (name, node) ∈ store.children location :=
  List.mem_filterMap.2
    ⟨(name :: location, node), mem_nodes_of_node? (List.cons_ne_nil _ _) h, by simp⟩

theorem mem_children_iff (h : store.ListedOnce) {name : String} {node : Node} :
    (name, node) ∈ store.children location ↔ store.node? (name :: location) = some node := by
  refine ⟨fun hmem => ?_, mem_children⟩
  obtain ⟨⟨found, other⟩, hentry, hchild⟩ := List.mem_filterMap.1 hmem
  have hnode : (name :: location, node) ∈ store.nodes := by
    cases found with
    | nil => cases hchild
    | cons first above =>
        simp only at hchild
        split at hchild
        · next habove =>
          cases hchild
          rwa [habove] at hentry
        · cases hchild
  obtain ⟨before, after, hnodes⟩ := List.append_of_mem hnode
  have hbefore : ∀ entry ∈ before, entry.1 ≠ name :: location := by
    rw [ListedOnce, hnodes, List.map_append, List.nodup_append] at h
    exact fun entry hentry => h.2.2 entry.1 (List.mem_map_of_mem hentry) _ (by simp)
  refine List.lookup_eq_some_iff.2 ⟨before, after, hnodes, fun entry hentry => ?_⟩
  simpa using (hbefore entry hentry).symm

/-! ### Granted requests -/

theorem makeDirectory_eq_ok (h : store.Linkless) (hmake : store.makeDirectory path = .ok store') :
    store.place path ≠ [] ∧ store.node? (store.place path) = none ∧
      store' = store.put (store.place path) .directory := by
  obtain ⟨⟨directory, name⟩, hentry, hnode⟩ := Except.bind_eq_ok_iff.1 hmake
  rw [place_of_locateEntry h hentry]
  simp only at hnode
  split at hnode
  · cases hnode
  · next hnone =>
    cases hnode
    exact ⟨List.cons_ne_nil _ _, hnone, rfl⟩

theorem write_eq_ok (h : store.Linkless) {bytes : ByteArray}
    (hwrite : store.write path bytes = .ok store') :
    (∃ old, store.node? (store.place path) = some (.file (.regular old))) ∧
      store' = store.put (store.place path) (.file (.regular bytes)) := by
  obtain ⟨location, hlocate, hnode⟩ := Except.bind_eq_ok_iff.1 hwrite
  rw [← locate_eq_place h hlocate]
  split at hnode
  · next old hfile =>
    cases hnode
    exact ⟨⟨old, hfile⟩, rfl⟩
  · cases hnode
  · cases hnode
  · cases hnode
  · cases hnode

theorem rename_eq_ok (h : store.Linkless) {source target : Path}
    (hrename : store.rename source target = .ok store') :
    ∃ node, store.node? (store.place source) = some node ∧ node ≠ .directory ∧
      (∃ entry, store.locateEntry target = .ok entry) ∧ store.place target ≠ [] ∧
      store.node? (store.place target) ≠ some .directory ∧
      store' = (store.erase (store.place source)).put (store.place target) node := by
  obtain ⟨⟨sourceDirectory, sourceName⟩, hsource, hrename⟩ := Except.bind_eq_ok_iff.1 hrename
  obtain ⟨⟨directory, name⟩, hentry, hnode⟩ := Except.bind_eq_ok_iff.1 hrename
  rw [place_of_locateEntry h hsource, place_of_locateEntry h hentry]
  simp only at hnode
  split at hnode
  · cases hnode
  · cases hnode
  · cases hnode
  · next node hdirectory hsome htarget =>
    cases hnode
    exact ⟨node, hsome, hdirectory, ⟨_, hentry⟩, List.cons_ne_nil _ _, htarget, rfl⟩

/-- What is removed is an entry that is no directory. -/
theorem remove_eq_ok_iff : store.remove path = .ok store' ↔
    ∃ entry node, store.locateEntry path = .ok entry ∧
      store.node? (entry.2 :: entry.1) = some node ∧ node ≠ .directory ∧
      store' = store.erase (entry.2 :: entry.1) := by
  rw [remove]
  constructor
  · intro h
    obtain ⟨⟨directory, name⟩, hentry, hnode⟩ := Except.bind_eq_ok_iff.1 h
    simp only at hnode
    split at hnode
    · cases hnode
    · cases hnode
    · next node hdirectory hsome =>
      cases hnode
      exact ⟨_, node, hentry, hsome, hdirectory, rfl⟩
  · rintro ⟨⟨directory, name⟩, node, hentry, hnode, hdirectory, rfl⟩
    refine Except.bind_eq_ok_iff.2 ⟨_, hentry, ?_⟩
    cases node with
    | directory => exact absurd rfl hdirectory
    | file _ | link _ => simp [hnode]

theorem remove_eq_ok (h : store.Linkless) (hremove : store.remove path = .ok store') :
    (∃ node, store.node? (store.place path) = some node ∧ node ≠ .directory) ∧
      store' = store.erase (store.place path) := by
  obtain ⟨entry, node, hentry, hsome, hdirectory, rfl⟩ := remove_eq_ok_iff.1 hremove
  rw [place_of_locateEntry h hentry]
  exact ⟨⟨node, hsome, hdirectory⟩, rfl⟩

/-- A file whose entry can be reached is removed on request. -/
theorem remove_of_locateEntry (h : store.Linkless) {entry : Location × String}
    (hentry : store.locateEntry path = .ok entry) {bytes : ByteArray}
    (hfile : store.node? (store.place path) = some (.file (.regular bytes))) :
    store.remove path = .ok (store.erase (store.place path)) := by
  rw [place_of_locateEntry h hentry] at hfile ⊢
  exact remove_eq_ok_iff.2 ⟨entry, _, hentry, hfile, nofun, rfl⟩

/-- A file whose entry can be reached can be given a new content. -/
theorem write_of_locateEntry (h : store.Linkless) {base : Path} {name : String}
    (hname : Path.IsName name) {entry : Location × String}
    (hentry : store.locateEntry (base.join name) = .ok entry) {old : ByteArray}
    (hfile : store.node? (store.place (base.join name)) = some (.file (.regular old)))
    (bytes : ByteArray) :
    store.write (base.join name) bytes =
      .ok (store.put (store.place (base.join name)) (.file (.regular bytes))) := by
  rw [place_of_locateEntry h hentry] at hfile ⊢
  refine Except.bind_eq_ok_iff.2 ⟨_, locate_of_locateEntry h hname hentry hfile, ?_⟩
  simp only [hfile]

/-- A file is moved to a name that can be reached if no directory has it. -/
theorem rename_of_locateEntry (h : store.Linkless) {source target : Path}
    {sourceEntry entry : Location × String} (hsource : store.locateEntry source = .ok sourceEntry)
    (htarget : store.locateEntry target = .ok entry) {bytes : ByteArray}
    (hfile : store.node? (store.place source) = some (.file (.regular bytes)))
    (hdirectory : store.node? (store.place target) ≠ some .directory) :
    store.rename source target =
      .ok ((store.erase (store.place source)).put (store.place target) (.file (.regular bytes))) := by
  obtain ⟨sourceDirectory, sourceName⟩ := sourceEntry
  obtain ⟨directory, name⟩ := entry
  rw [place_of_locateEntry h hsource] at hfile ⊢
  rw [place_of_locateEntry h htarget] at hdirectory ⊢
  refine Except.bind_eq_ok_iff.2 ⟨_, hsource, Except.bind_eq_ok_iff.2 ⟨_, htarget, ?_⟩⟩
  simp only [hfile]

/-! ### Temporary files -/

theorem toList_temporaryName (number : Nat) :
    (temporaryName number).toList = ".switchboard-".toList ++ Nat.toDigits 16 (0x100000 + number) := by
  simp [temporaryName]

theorem head?_temporaryName (number : Nat) : (temporaryName number).toList.head? = some '.' := by
  rw [toList_temporaryName]
  rfl

theorem temporaryName_injective : Function.Injective temporaryName := by
  intro number number' h
  have hlists := congrArg String.toList h
  rw [toList_temporaryName, toList_temporaryName] at hlists
  have hdigits := congrArg (Text.hexValueFrom? 0) (List.append_cancel_left hlists)
  rw [Text.hexValueFrom?_toDigits, Text.hexValueFrom?_toDigits] at hdigits
  exact Nat.add_left_cancel (Option.some.inj hdigits)

theorem isName_temporaryName (number : Nat) : Path.IsName (temporaryName number) := by
  have hlength : 13 ≤ (temporaryName number).toList.length := by
    rw [toList_temporaryName, List.length_append]
    exact Nat.le_add_right 13 _
  refine ⟨?_, fun hslash => ?_, ?_, ?_⟩
  · rintro heq
    simp [heq] at hlength
  · rw [toList_temporaryName, List.mem_append] at hslash
    rcases hslash with hslash | hslash
    · revert hslash
      decide
    · have hword : Text.isWordChar '/' := Text.isWordChar_of_mem_toDigits hslash
      revert hword
      decide
  · rintro heq
    simp [heq] at hlength
  · rintro heq
    simp [heq] at hlength

/-- Among more names than are taken there is one that is not. -/
theorem exists_not_mem_of_lt {names taken : List String} (hnodup : names.Nodup)
    (hlength : taken.length < names.length) : ∃ name ∈ names, name ∉ taken := by
  by_contra hall
  have hsubset : names ⊆ taken := fun name hname => by
    by_contra hnot
    exact hall ⟨name, hname, hnot⟩
  exact absurd (hnodup.length_le_of_subset hsubset) (Nat.not_le.2 hlength)

/-- A temporary file gets a name that is not taken. -/
theorem freshName?_eq_some {taken : List String} {name : String} (h : freshName? taken = some name) :
    ∃ number < temporaryLimit, name = temporaryName number ∧ name ∉ taken := by
  obtain ⟨number, hnumber, rfl⟩ := List.mem_map.1 (List.mem_of_find?_eq_some h)
  have hlt := Nat.lt_of_lt_of_le (List.mem_range.1 hnumber) (Nat.min_le_right _ _)
  exact ⟨number, hlt, rfl, by simpa using List.find?_some h⟩

/-- It gets one as long as there is one. -/
theorem exists_freshName? {taken : List String}
    (h : ∃ number < temporaryLimit, temporaryName number ∉ taken) :
    ∃ name, freshName? taken = some name := by
  rw [← Option.isSome_iff_exists, freshName?, List.find?_isSome]
  rcases Nat.le_total (taken.length + 1) temporaryLimit with hle | hle
  · rw [Nat.min_eq_left hle]
    have hnodup : ((List.range (taken.length + 1)).map temporaryName).Nodup :=
      List.nodup_range.map temporaryName_injective
    have hlength : taken.length < ((List.range (taken.length + 1)).map temporaryName).length := by simp
    obtain ⟨name, hmem, hnot⟩ := exists_not_mem_of_lt hnodup hlength
    exact ⟨name, hmem, by simpa using hnot⟩
  · obtain ⟨number, hlt, hnot⟩ := h
    rw [Nat.min_eq_right hle]
    exact ⟨_, List.mem_map_of_mem (List.mem_range.2 hlt), by simpa using hnot⟩

theorem createTemporary_eq_ok (h : store.Linkless) {directory temporary : Path}
    (hcreate : store.createTemporary directory = .ok (temporary, store')) :
    ∃ number, temporary = directory.join (temporaryName number) ∧
      (∃ entry, store.locateEntry temporary = .ok entry) ∧
      store.node? (store.place temporary) = none ∧
      store' = store.put (store.place temporary) (.file (.regular ByteArray.empty)) := by
  obtain ⟨location, hlocate, hcreate⟩ := Except.bind_eq_ok_iff.1 hcreate
  split at hcreate
  · next hdirectory =>
    split at hcreate
    · cases hcreate
    · next name hfresh =>
      obtain ⟨number, -, rfl, hfree⟩ := freshName?_eq_some hfresh
      obtain ⟨entry, hentry, hcreate⟩ := Except.bind_eq_ok_iff.1 hcreate
      cases hcreate
      refine ⟨number, rfl, ⟨entry, hentry⟩, ?_, by rw [place_of_locateEntry h hentry]⟩
      rw [place_join_name _ _ (isName_temporaryName number), ← locate_eq_place h hlocate]
      cases hnode : store.node? (temporaryName number :: location) with
      | none => rfl
      | some node => exact absurd (List.mem_map_of_mem (mem_children hnode)) hfree
  · cases hcreate
  · cases hcreate

/-! ### Answers -/

theorem continues_changed (hlinkless : store.Linkless) {change : Except Cause Store}
    (h : ∀ store', change = .ok store' → store.Continues store') :
    store.Continues (store.changed change).2 := by
  cases change with
  | ok store' => exact h store' rfl
  | error cause => exact .refl hlinkless

theorem continues_answer (h : store.Linkless) (request : Request) :
    store.Continues ((answer request).run store).2 := by
  cases request with
  | inspect path => exact .refl h
  | read path => exact .refl h
  | list path => exact .refl h
  | makeDirectory path =>
      refine continues_changed h fun store' hmake => ?_
      obtain ⟨hne, hnone, rfl⟩ := makeDirectory_eq_ok h hmake
      exact continues_put h hne (by simp) (by simp)
  | createTemporary directory =>
      cases hcreate : store.createTemporary directory with
      | ok created =>
          obtain ⟨temporary, store'⟩ := created
          have hstore : ((answer (.createTemporary directory)).run store).2 = store' := by
            simp only [answer, StateT.run, hcreate]
          obtain ⟨number, rfl, ⟨entry, hentry⟩, hnone, rfl⟩ := createTemporary_eq_ok h hcreate
          have hne : store.place (directory.join (temporaryName number)) ≠ [] := by
            rw [place_of_locateEntry h hentry]
            exact List.cons_ne_nil _ _
          rw [hstore]
          exact continues_put h hne (by simp) (by simp [hnone])
      | error cause =>
          have hstore : ((answer (.createTemporary directory)).run store).2 = store := by
            simp only [answer, StateT.run, hcreate]
          rw [hstore]
          exact .refl h
  | write path bytes =>
      refine continues_changed h fun store' hwrite => ?_
      obtain ⟨⟨old, hfile⟩, rfl⟩ := write_eq_ok h hwrite
      exact continues_put h (ne_nil_of_node? hfile (by simp)) (by simp) (by simp [hfile])
  | rename source target =>
      refine continues_changed h fun store' hrename => ?_
      obtain ⟨node, hnode, hne, -, htarget, hdirectory, rfl⟩ := rename_eq_ok h hrename
      have herase : store.Continues (store.erase (store.place source)) :=
        continues_erase h (ne_nil_of_node? hnode hne) (by simp [hnode, hne])
      refine herase.trans (continues_put herase.linkless htarget ?_ fun hfound => ?_)
      · rintro link rfl
        exact h _ link hnode
      · rw [node?_erase (ne_nil_of_node? hnode hne)] at hfound
        split at hfound
        · cases hfound
        · exact absurd hfound hdirectory
  | remove path =>
      refine continues_changed h fun store' hremove => ?_
      obtain ⟨⟨node, hnode, hne⟩, rfl⟩ := remove_eq_ok h hremove
      exact continues_erase h (ne_nil_of_node? hnode hne) (by simp [hnode, hne])

theorem continues_run {α : Type} (h : store.Linkless) (script : Script α) :
    store.Continues (store.run script).2 := by
  induction script generalizing store with
  | done value => exact .refl h
  | ask request next ih =>
      have hanswer := continues_answer h request
      exact hanswer.trans (ih _ hanswer.linkless)

theorem continues_perform {α : Type} (h : store.Linkless) {job : Job α} {result : Except Fault α}
    (hrun : store.perform job = (result, store')) : store.Continues store' := by
  have hcontinues := continues_run h job.run
  rwa [show store.run job.run = (result, store') from hrun] at hcontinues

end Store

end Switchboard.Disk
