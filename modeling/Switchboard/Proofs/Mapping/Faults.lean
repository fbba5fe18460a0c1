import Switchboard.Artifact

/-!
Faults of mappings. Reading a mapping, checking it, laying it out and emitting it need no file system,
and none of their faults is one of the file system. So the action of a fault tells in which part of a
run it arose.
-/

namespace Switchboard

/-- What was asked of the file system when it raised the fault. -/
def Fault.action? : Fault → Option Disk.Action
  | .disk action _ _ => some action
  | _ => none

namespace Mapping

variable {name source : String} {config : Config} {fault : Fault}

/-- The walk over the entries fails with what refuses one of them, or with the clash of one of them
and an earlier line. -/
theorem checkKeys_eq_error {κ : Type} [BEq κ] [Hashable κ] {key : Entry → κ}
    {refuse : Entry → Option Fault} {clash : Entry → Nat → Fault} {seen : Std.HashMap κ Nat}
    {entries : List Entry} (h : checkKeys key refuse clash seen entries = .error fault) :
    ∃ e ∈ entries, refuse e = some fault ∨ ∃ line, fault = clash e line := by
  induction entries generalizing seen with
  | nil => cases h
  | cons entry rest ih =>
      rw [checkKeys] at h
      split at h
      · next hrefuse =>
        cases h
        exact ⟨entry, List.mem_cons_self, .inl hrefuse⟩
      · next line _ _ =>
        cases h
        exact ⟨entry, List.mem_cons_self, .inr ⟨line, rfl⟩⟩
      · obtain ⟨e, he, hfault⟩ := ih h
        exact ⟨e, List.mem_cons_of_mem _ he, hfault⟩

theorem action?_of_checkIdentifiers {entries : List Entry}
    (h : checkIdentifiers name entries = .error fault) : fault.action? = none := by
  obtain ⟨e, -, hrefuse | ⟨line, rfl⟩⟩ := checkKeys_eq_error h
  · cases hrefuse
  · rfl

theorem action?_of_checkSlotNames {entries : List Entry}
    (h : checkSlotNames name entries = .error fault) : fault.action? = none := by
  obtain ⟨e, -, hrefuse | ⟨line, rfl⟩⟩ := checkKeys_eq_error h
  · simp only [Option.ite_none_right_eq_some, Option.some.injEq] at hrefuse
    rw [← hrefuse.2]
    rfl
  · rfl

theorem action?_of_readLines {width : Width} {line : Nat} {texts : List (List Char)}
    (h : readLines name width line texts = .error fault) : fault.action? = none := by
  induction texts generalizing line with
  | nil => cases h
  | cons text rest ih =>
      rw [readLines] at h
      split at h
      · cases h
        rfl
      · exact ih (Except.map_eq_error_iff.1 h)

theorem action?_of_readEntries (h : readEntries name source config = .error fault) :
    fault.action? = none := by
  unfold readEntries at h
  simp only at h
  split at h
  · exact action?_of_readLines h
  · split at h
    · exact action?_of_readLines h
    · cases h
      rfl

theorem action?_of_ofEntries {entries : List Entry} (h : ofEntries name entries = .error fault) :
    fault.action? = none := by
  unfold ofEntries at h
  split at h
  · split at h
    · next hcheck =>
      cases h
      exact action?_of_checkIdentifiers hcheck
    · split at h
      · next hcheck =>
        cases h
        exact action?_of_checkSlotNames hcheck
      · cases h
  · cases h
    rfl

theorem action?_of_ofSource (h : ofSource name source config = .error fault) :
    fault.action? = none := by
  unfold ofSource at h
  split at h
  · split at h
    · next hread =>
      cases h
      exact action?_of_readEntries hread
    · exact action?_of_ofEntries h
  · cases h
    rfl

end Mapping

variable {mapping : Mapping} {strategy : Strategy} {config : Config} {fault : Fault}

/-- Only a table can fail to be laid out: there is nothing to span, or too much. -/
theorem Plan.ofMapping_eq_error (h : Plan.ofMapping strategy mapping config = .error fault) :
    strategy = .array ∧ (fault = .emptyMapping mapping.name ∨
      ∃ length, fault = .tableTooLarge mapping.name length config.tableLimit) := by
  cases strategy with
  | switch => cases h
  | chain => cases h
  | array =>
      refine ⟨rfl, ?_⟩
      have htable : TablePlan.ofMapping mapping config.tableLimit = .error fault :=
        Except.map_eq_error_iff.1 h
      unfold TablePlan.ofMapping at htable
      simp only at htable
      split at htable
      · split at htable
        · cases htable
        · cases htable
          exact .inr ⟨_, rfl⟩
      · cases htable
        exact .inl rfl

theorem Artifact.action?_of_emit (h : Artifact.emit mapping strategy config = .error fault) :
    fault.action? = none := by
  have hplan : Plan.ofMapping strategy mapping config = .error fault :=
    Except.map_eq_error_iff.1 h
  obtain ⟨-, rfl | ⟨length, rfl⟩⟩ := Plan.ofMapping_eq_error hplan
  · rfl
  · rfl

end Switchboard
