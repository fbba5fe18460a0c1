import Switchboard.Proofs.Generation.Listing
import Switchboard.Proofs.Output.Cleaning

/-!
What does not depend on the order in which directories are listed. Mapping files are checked one after
the other in the order of the listing and sorted behind that, so the first entry that is no file depends
on the order, and with it the fault. But whether there is one does not, nor what is returned if there is
none. Behind the mapping files nothing is listed when a directory is generated. What is removed is sorted
before anything is done with it, and so cleaning ends in one way, fault and all.
-/

namespace Switchboard

open Disk

variable {store : Store} {directory : Path}

/-! ### Mapping files -/

theorem failsAlike_mappingFiles (store : Store) (directory : Path) :
    Job.FailsAlike store (mappingFiles directory) := by
  intro result after result' after' h h'
  obtain ⟨rfl, answer, hanswer, rfl⟩ := performs_mappingFiles_iff.1 h
  obtain ⟨rfl, answer', hanswer', rfl⟩ := performs_mappingFiles_iff.1 h'
  refine ⟨rfl, fun paths => ?_⟩
  rw [mappingsOf_eq_ok_iff hanswer, mappingsOf_eq_ok_iff hanswer']

/-- What is returned, if anything is, are the visible entries, each once and in ascending order. -/
theorem names_of_performs_mappingFiles (hlisted : store.ListedOnce) {paths : List Path} {after : Store}
    (h : store.Performs (mappingFiles directory) (.ok paths) after) :
    ∃ (location : Location) (names : List String), store.LeadsTo directory location ∧
      names.Pairwise (· < ·) ∧ (∀ name, name ∈ names ↔
        name.toList.head? ≠ some '.' ∧ store.node? (name :: location) ≠ none) ∧
      paths = names.map directory.join := by
  obtain ⟨-, answer, hanswer, hpaths⟩ := performs_mappingFiles_iff.1 h
  obtain ⟨location, hleads, -, rfl⟩ := (mappingsOf_eq_ok_iff hanswer).1 hpaths.symm
  have hnodup : (visibleNames store location).Nodup := (hlisted.children location).filter _
  refine ⟨location, _, hleads, Text.pairwise_lt_mergeSort hnodup, fun name => ?_, rfl⟩
  rw [List.mem_mergeSort, mem_visibleNames]
  exact and_congr_left' beq_eq_false_iff_ne

/-! ### Generation -/

namespace Generator

theorem failsAlike_generateDirectory (store : Store) (generator : Generator) (directory : Path) :
    Job.FailsAlike store (generator.generateDirectory directory) := by
  have hemission : Job.FailsAlike store (generator.directoryEmission directory) :=
    (failsAlike_mappingFiles store directory).bind fun paths =>
      Job.Keeps.ignoresOrder (keeps_emitFiles generator.config [] fun _ => rfl)
  exact hemission.bind fun artifacts =>
    Job.Keeps.ignoresOrder (Output.keeps_writeArtifacts (fun _ h => h) _ _ artifacts)

end Generator

/-! ### Cleaning -/

namespace Output

theorem unitsOf_eq_of_perm (directory : Path) (extension : String)
    {entries shown : List (String × Kind)} (h : shown.Perm entries) :
    unitsOf directory extension (.ok shown) = unitsOf directory extension (.ok entries) := by
  rw [unitsOf, unitsOf, unitNames, unitNames, Text.mergeSort_eq_of_perm (h.filterMap _)]

theorem ignoresOrder_generatedFiles (directory : Path) (extension : String) :
    (generatedFiles directory extension).IgnoresOrder := by
  rw [generatedFiles_eq]
  refine Job.ignoresOrder_of_list fun entries shown hperm => ?_
  rw [unitsOf_eq_of_perm directory extension hperm]

theorem ignoresOrder_removeFiles (paths : List Path) : (removeFiles paths).IgnoresOrder := by
  have hkeeps : Job.Keeps (·.isListing = false) (fun _ => True) (removeFiles paths) := by
    refine Job.keeps_forM fun path => ?_
    have hremove : (Script.request (.remove path)).Keeps (·.isListing = false) fun _ => True :=
      Script.keeps_request rfl
    exact Job.keeps_attempt hremove fun _ => trivial
  exact hkeeps.ignoresOrder

theorem ignoresOrder_clean (layout : Layout) : (clean layout).IgnoresOrder := by
  refine (ignoresOrder_generatedFiles _ _).bind fun interfaces => ?_
  refine (ignoresOrder_removeFiles interfaces).bind fun _ => ?_
  refine (ignoresOrder_generatedFiles _ _).bind fun implementations => ?_
  refine (ignoresOrder_removeFiles implementations).bind fun _ => ?_
  exact Job.ignoresOrder_pure _

end Output

/-! ### Any two orders -/

/-- The order in which directories are listed does not matter. Take two runs over one store, which may
have links, and in each of them any order of any listing. Mapping files: either both runs return the same
paths, those of the entries of the directory that do not begin with a dot, strictly ascending, or both
fail. Generation from a directory: either both succeed with one result, or both fail, and they leave one
store behind. Cleaning: both end in the same way and leave one store behind. -/
theorem listing_order_does_not_matter (hlisted : store.ListedOnce) :
    (∀ (directory : Path) (result result' : Except Fault (List Path)) (after after' : Store),
      store.Performs (mappingFiles directory) result after →
      store.Performs (mappingFiles directory) result' after' →
      after = store ∧ after' = store ∧
        ((∃ (location : Location) (names : List String), store.LeadsTo directory location ∧
            names.Pairwise (· < ·) ∧
            (∀ name, name ∈ names ↔
              name.toList.head? ≠ some '.' ∧ store.node? (name :: location) ≠ none) ∧
            result = .ok (names.map directory.join) ∧ result' = .ok (names.map directory.join)) ∨
          ∃ fault fault', result = .error fault ∧ result' = .error fault')) ∧
    (∀ (generator : Generator) (directory : Path)
      (result result' : Except Fault (List Output.Written)) (after after' : Store),
      store.Performs (generator.generateDirectory directory) result after →
      store.Performs (generator.generateDirectory directory) result' after' →
      after = after' ∧
        ((∃ written, result = .ok written ∧ result' = .ok written) ∨
          ∃ fault fault', result = .error fault ∧ result' = .error fault')) ∧
    ∀ (layout : Layout) (result result' : Except Fault (List Path)) (after after' : Store),
      store.Performs (Output.clean layout) result after →
      store.Performs (Output.clean layout) result' after' → result = result' ∧ after = after' := by
  refine ⟨?_, ?_, ?_⟩
  · intro directory result result' after after' h h'
    obtain ⟨rfl, hcases⟩ := (failsAlike_mappingFiles store directory).cases h h'
    have hafter : after = store := (performs_mappingFiles_iff.1 h).1
    refine ⟨hafter, hafter, hcases.imp_left ?_⟩
    rintro ⟨paths, rfl, rfl⟩
    obtain ⟨location, names, hleads, hascending, hmem, rfl⟩ :=
      names_of_performs_mappingFiles hlisted h
    exact ⟨location, names, hleads, hascending, hmem, rfl, rfl⟩
  · intro generator directory result result' after after' h h'
    exact (generator.failsAlike_generateDirectory store directory).cases h h'
  · intro layout result result' after after' h h'
    have heq := (Output.ignoresOrder_clean layout _ _ _ h).trans
      (Output.ignoresOrder_clean layout _ _ _ h').symm
    exact Prod.mk.inj heq

/-- A directory with two mappings and a hidden entry, and one with two directories. -/
def unsorted : Store where
  home := ["home"]
  nodes := [
    (["home"], .directory),
    (["maps", "home"], .directory),
    (["ip", "maps", "home"], .file (.regular ByteArray.empty)),
    (["arp", "maps", "home"], .file (.regular ByteArray.empty)),
    ([".hidden", "maps", "home"], .directory),
    (["nested", "home"], .directory),
    (["b", "nested", "home"], .directory),
    (["a", "nested", "home"], .directory)]

/-- The mappings are found in one order, whichever comes first in the listing. Of the two directories
either can be at fault. -/
theorem listing_order_does_not_matter_unsorted : unsorted.ListedOnce ∧
    (∃ result, unsorted.Performs (mappingFiles ⟨"maps"⟩) result unsorted) ∧
    (∀ result after, unsorted.Performs (mappingFiles ⟨"maps"⟩) result after →
      result = .ok [⟨"maps/arp"⟩, ⟨"maps/ip"⟩] ∧ after = unsorted) ∧
    unsorted.Performs (mappingFiles ⟨"nested"⟩) (.error (.path ⟨"nested/a"⟩ .notFile)) unsorted ∧
    unsorted.Performs (mappingFiles ⟨"nested"⟩) (.error (.path ⟨"nested/b"⟩ .notFile)) unsorted := by
  have hlisted : unsorted.ListedOnce := by
    unfold Store.ListedOnce
    decide
  have hrun : unsorted.Performs (mappingFiles ⟨"maps"⟩) (.ok [⟨"maps/arp"⟩, ⟨"maps/ip"⟩]) unsorted := by
    have hshows : unsorted.Shows (.list ⟨"maps"⟩) (unsorted.list ⟨"maps"⟩) := .served _
    have hvisible : visibleNames unsorted ["maps", "home"] = ["ip", "arp"] := by decide +kernel
    have hsorted : ["ip", "arp"].mergeSort (fun a b => a ≤ b) = ["arp", "ip"] := by
      rw [Text.mergeSort_eq_of_perm (.swap _ _ []), List.mergeSort_of_pairwise (by decide +kernel)]
    refine performs_mappingFiles_iff.2 ⟨rfl, _, hshows, Eq.symm ((mappingsOf_eq_ok_iff hshows).2 ?_)⟩
    refine ⟨["maps", "home"], ⟨by rfl, by rfl⟩, ?_, ?_⟩
    · rw [hvisible, List.forall_mem_cons, List.forall_mem_singleton]
      exact ⟨by rfl, by rfl⟩
    · rw [hvisible, hsorted]
      rfl
  have hnested : unsorted.list ⟨"nested"⟩ = .ok [("b", .directory), ("a", .directory)] := by rfl
  refine ⟨hlisted, ⟨_, hrun⟩, fun result after h => ?_, ?_, ?_⟩
  · obtain ⟨hmappings, -⟩ := listing_order_does_not_matter hlisted
    obtain ⟨-, hafter, ⟨_, names, -, -, -, hresult, hresult'⟩ | ⟨_, _, hfault, -⟩⟩ :=
      hmappings _ _ _ _ _ hrun h
    · exact ⟨hresult'.trans hresult.symm, hafter⟩
    · cases hfault
  · exact performs_mappingFiles_iff.2 ⟨rfl, _, .shuffled hnested (.swap _ _ []), by rfl⟩
  · exact performs_mappingFiles_iff.2 ⟨rfl, _, .shuffled hnested (.refl _), by rfl⟩

end Switchboard
