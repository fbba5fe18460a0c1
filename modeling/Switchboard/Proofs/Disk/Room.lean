import Switchboard.Proofs.Disk.Ways

/-!
Room for a temporary file. All names of temporary files are of one length, so that a path to one of them
is within the limits if a path to any of them is. Whether a temporary file can be made in a directory
therefore depends on nothing but the directory, the length of its path, and one name that is not in use
(`Store.HasRoom`).
-/

namespace Switchboard.Disk.Store

variable {store store' : Store} {base directory : Path} {name name' : String} {location : Location}

/-! ### Names of one length -/

theorem utf8ByteSize_join (base : Path) {tail : String} (hrel : tail.toList.head? ≠ some '/') :
    (base.join tail).text.utf8ByteSize = base.text.utf8ByteSize +
      (if base.text = "" ∨ base.text.toList.getLast? = some '/' then 0 else 1) +
      tail.utf8ByteSize := by
  unfold Path.join
  rw [if_neg hrel]
  split
  · rw [String.utf8ByteSize_append, Nat.add_zero]
  · rw [String.utf8ByteSize_append, String.utf8ByteSize_append]
    rfl

theorem checkPath_join_congr (hrel : name.toList.head? ≠ some '/') (hname' : Path.IsName name')
    (hnul : '\x00' ∉ name'.toList) (hsize : name'.utf8ByteSize = name.utf8ByteSize)
    (h : checkPath (base.join name) = .ok ()) : checkPath (base.join name') = .ok () := by
  rw [checkPath_eq_ok_iff, Path.toList_join hrel, utf8ByteSize_join base hrel] at h
  rw [checkPath_eq_ok_iff, Path.toList_join hname'.head?_ne, utf8ByteSize_join base hname'.head?_ne,
    hsize]
  refine ⟨fun hmem => ?_, fun hempty => ?_, h.2.2⟩
  · rcases List.mem_append.1 hmem with hmem | hmem
    · exact h.1 (List.mem_append_left _ hmem)
    · exact hnul hmem
  · have hchars := @Path.toList_join base name' hname'.head?_ne
    rw [hempty] at hchars
    have hname : name'.toList = [] := (List.append_eq_nil_iff.1 hchars.symm).2
    exact hname'.ne_empty (String.toList_inj.1 hname)

/-- Under a name of the same length, an entry of a directory can be reached as well. -/
theorem locateEntry_join_congr (hlinkless : store.Linkless) (hname : Path.IsName name)
    (hname' : Path.IsName name') (hnul : '\x00' ∉ name'.toList)
    (hsize : name'.utf8ByteSize = name.utf8ByteSize)
    (h : ∃ entry, store.locateEntry (base.join name) = .ok entry) :
    ∃ entry, store.locateEntry (base.join name') = .ok entry := by
  obtain ⟨⟨above, found⟩, hentry⟩ := h
  obtain ⟨-, hcheck, hlimit, hadvance⟩ := (locateEntry_join_iff hlinkless hname).1 hentry
  have hcheck' := checkPath_join_congr hname.head?_ne hname' hnul hsize hcheck
  have hlimit' := hsize ▸ hlimit
  exact ⟨(above, name'), (locateEntry_join_iff hlinkless hname').2 ⟨rfl, hcheck', hlimit', hadvance⟩⟩

theorem utf8ByteSize_ofList {chars : List Char} (h : ∀ c ∈ chars, c.utf8Size = 1) :
    (String.ofList chars).utf8ByteSize = chars.length := by
  induction chars with
  | nil => rfl
  | cons c rest ih =>
      obtain ⟨hc, hrest⟩ := List.forall_mem_cons.1 h
      rw [String.ofList_cons, String.utf8ByteSize_append, String.utf8ByteSize_singleton, hc, ih hrest,
        List.length_cons, Nat.add_comm]

/-- The name of a temporary file has six digits. -/
theorem utf8ByteSize_temporaryName {number : Nat} (h : number < temporaryLimit) :
    (temporaryName number).utf8ByteSize = 19 := by
  have hlength : (Nat.toDigits 16 (0x100000 + number)).length = 6 := by
    unfold temporaryLimit at h
    refine Nat.le_antisymm ?_ (Nat.lt_of_not_le fun hle => ?_)
    · rw [Nat.length_toDigits_le_iff (by decide) (by decide)]
      omega
    · rw [Nat.length_toDigits_le_iff (by decide) (by decide)] at hle
      omega
  have hdigits : ∀ c ∈ Nat.toDigits 16 (0x100000 + number), c.utf8Size = 1 := by
    have hall : ∀ c ∈ Text.hexDigits, c.utf8Size = 1 :=
      List.forall_iff_forall_mem.1 (by decide)
    exact fun c hc => hall c (Text.mem_hexDigits_of_mem_toDigits hc)
  rw [temporaryName, String.utf8ByteSize_append, Text.hex, utf8ByteSize_ofList hdigits, hlength]
  rfl

theorem nul_not_mem_temporaryName (number : Nat) : '\x00' ∉ (temporaryName number).toList := by
  rw [toList_temporaryName, List.mem_append]
  rintro (hnul | hnul)
  · revert hnul
    decide
  · exact absurd (Text.mem_hexDigits_of_mem_toDigits hnul) (by decide)

/-! ### Room -/

/-- A directory lists the names that are in use in it. -/
theorem mem_children_map_iff :
    name ∈ (store.children location).map (·.1) ↔ store.node? (name :: location) ≠ none := by
  constructor
  · intro hmem hnone
    have hlookup : store.nodes.lookup (name :: location) = none := hnone
    have hlisted : name :: location ∈ (store.nodes.map (·.1)) := by
      refine (children_sublist store location).subset ?_
      obtain ⟨child, hchild, rfl⟩ := List.mem_map.1 hmem
      exact List.mem_map_of_mem hchild
    obtain ⟨entry, hentry, heq⟩ := List.mem_map.1 hlisted
    have hne := List.lookup_eq_none_iff.1 hlookup entry hentry
    simp [heq] at hne
  · intro hnode
    obtain ⟨node, hnode⟩ := Option.ne_none_iff_exists'.1 hnode
    exact List.mem_map_of_mem (mem_children hnode)

/-- A temporary file can be made in the directory. -/
structure HasRoom (store : Store) (directory : Path) : Prop where
  hasDirectory : store.HasDirectory directory
  fits : ∃ number < temporaryLimit, ∃ entry,
    store.locateEntry (directory.join (temporaryName number)) = .ok entry
  free : ∃ number < temporaryLimit,
    store.node? (temporaryName number :: store.place directory) = none

theorem exists_createTemporary_iff (hlinkless : store.Linkless) :
    (∃ made, store.createTemporary directory = .ok made) ↔ store.HasRoom directory := by
  constructor
  · rintro ⟨made, hmade⟩
    obtain ⟨location, hlocate, hmade⟩ := Except.bind_eq_ok_iff.1 hmade
    obtain rfl := locate_eq_place hlinkless hlocate
    split at hmade
    · next hdirectory =>
      split at hmade
      · cases hmade
      · next name hfresh =>
        obtain ⟨number, hlt, rfl, hfree⟩ := freshName?_eq_some hfresh
        obtain ⟨entry, hentry, -⟩ := Except.bind_eq_ok_iff.1 hmade
        refine ⟨⟨hlocate, hdirectory⟩, ⟨number, hlt, entry, hentry⟩, number, hlt, ?_⟩
        simpa [mem_children_map_iff] using hfree
    · cases hmade
    · cases hmade
  · rintro ⟨⟨hlocate, hdirectory⟩, ⟨number, hlt, hfits⟩, free, hfree, hnone⟩
    obtain ⟨name, hfresh⟩ : ∃ name,
        freshName? ((store.children (store.place directory)).map (·.1)) = some name :=
      exists_freshName? ⟨free, hfree, by simpa [mem_children_map_iff] using hnone⟩
    obtain ⟨found, hfound, rfl, -⟩ := freshName?_eq_some hfresh
    have hsize := (utf8ByteSize_temporaryName hfound).trans (utf8ByteSize_temporaryName hlt).symm
    obtain ⟨entry, hentry⟩ := locateEntry_join_congr hlinkless (isName_temporaryName number)
      (isName_temporaryName found) (nul_not_mem_temporaryName found) hsize hfits
    refine ⟨(directory.join (temporaryName found),
      store.put (entry.2 :: entry.1) (.file (.regular .empty))), ?_⟩
    simp only [createTemporary, hlocate, hdirectory, hfresh, hentry, bind, Except.bind]

/-- Room stays as long as the directories and one name do. -/
theorem HasRoom.of_keepsDirectories (h : store.HasRoom directory) (hhome : store'.home = store.home)
    (hkeeps : store.KeepsDirectories store') (hlinkless : store.Linkless)
    (hlinkless' : store'.Linkless)
    (hfree : ∃ number < temporaryLimit,
      store'.node? (temporaryName number :: store.place directory) = none) :
    store'.HasRoom directory := by
  obtain ⟨⟨hlocate, hdirectory⟩, ⟨number, hlt, entry, hentry⟩, -⟩ := h
  have hdirectory' := hkeeps _ hdirectory
  have hlocate' := locate_of_keepsDirectories hhome hkeeps hlinkless hlinkless' hlocate
    (by simp [hdirectory'])
  rw [← place_eq_of_home hhome] at hlocate' hdirectory' hfree
  exact ⟨⟨hlocate', hdirectory'⟩, ⟨number, hlt, entry,
    locateEntry_of_keepsDirectories hhome hkeeps hlinkless hlinkless' hentry⟩, hfree⟩

end Switchboard.Disk.Store
