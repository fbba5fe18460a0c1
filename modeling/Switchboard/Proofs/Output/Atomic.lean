import Switchboard.Proofs.Generation.AllOrNothing
import Switchboard.Proofs.Generation.Load
import Switchboard.Proofs.Output.Stages

/-!
Units are replaced atomically. Stages are told by what has been put in place; this module says what
that means for whoever looks at the files, wherever a run is stopped and whichever of its requests are
refused. The path of a unit leads to what was there before or to the whole text of a unit, other files
are as they were, and there is no temporary file once the run has returned.
-/

namespace Switchboard.Output

open Disk

variable {layout : Layout} {indent : Indent} {artifacts : List Artifact} {before after : Store}

/-- What has been put in place can be read there. -/
theorem Stage.read (hemitted : ∀ artifact ∈ artifacts, IsEmitted artifact)
    (h : Stage before (UnitFile.ofArtifacts layout indent artifacts) none after)
    {early late : List UnitFile} {unit : UnitFile}
    (hunits : UnitFile.ofArtifacts layout indent artifacts = early ++ unit :: late)
    (hlate : ∀ other ∈ late, other.path = unit.path → other.text = unit.text) :
    after.read unit.path = .ok unit.text.toUTF8 := by
  have hmem : unit ∈ UnitFile.ofArtifacts layout indent artifacts := by simp [hunits]
  have hfile : after.file? (after.place unit.path) = some unit.text.toUTF8 := by
    rw [h.files _ nofun, h.continues.place_eq, hunits]
    refine contents_of_later before fun other hother hplace => hlate other hother ?_
    exact UnitFile.path_eq_of_place_eq hemitted (by simp [hunits, hother]) hmem hplace
  obtain ⟨entry, hentry⟩ := h.reachable unit hmem
  have hlinkless := h.continues.linkless
  have hplace := Store.place_of_locateEntry hlinkless hentry
  have hnode := Store.file?_eq_some_iff.1 hfile
  rw [hplace] at hnode
  exact Store.read_eq_ok_iff.2 ⟨_, Store.locate_of_locateEntry hlinkless
    (UnitFile.isUnitName hemitted hmem).isName hentry hnode, hnode⟩

/-! ### Descriptions -/

end Switchboard.Output
