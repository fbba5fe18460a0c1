import Switchboard.Proofs.Disk.Requests

/-!
What a job comes to. A job that only reads leaves the store as it finds it, so in a row of such jobs
each one starts from the same store, and all that matters of a job is its result there. Results are put
together like results that need no file system: a row of jobs comes to a row of results. Of jobs that
write it matters as well what store they leave, and the next one starts from there.
-/

namespace Switchboard.Disk.Job

variable {α β : Type} {store : Store} {faults : Fault → Prop}

/-- What the job comes to when the store answers its requests. -/
def result (store : Store) (job : Job α) : Except Fault α :=
  (store.perform job).1

@[simp] theorem result_pure (value : α) : (pure value : Job α).result store = .ok value := rfl

@[simp] theorem result_fail (fault : Fault) : (fail fault : Job α).result store = .error fault := rfl

@[simp] theorem result_ofExcept (result : Except Fault α) : (ofExcept result).result store = result :=
  rfl

theorem perform_eq_of_isReading {job : Job α} (h : Keeps (·.isReading) faults job) :
    store.perform job = (job.result store, store) :=
  Prod.ext rfl (h.perform_of_isReading store)

theorem result_bind {job : Job α} (h : Keeps (·.isReading) faults job) (f : α → Job β) :
    (job >>= f).result store = job.result store >>= fun value => (f value).result store := by
  rw [result, Store.perform_bind, perform_eq_of_isReading h]
  cases job.result store <;> rfl

theorem result_attempt_eq_ok_iff {action : Action} {path : Path} {script : Script (Except Cause α)}
    {value : α} :
    (attempt action path script).result store = .ok value ↔ (store.run script).1 = .ok value := by
  rw [result, attempt, Store.perform_bind, Store.perform_lift]
  cases hscript : (store.run script).1 <;> simp

/-- A row of checks passes exactly when each of them does. -/
theorem result_forM_eq_ok_iff {f : α → Job PUnit} {values : List α}
    (hf : ∀ value, Keeps (·.isReading) faults (f value)) :
    (values.forM f).result store = .ok () ↔ ∀ value ∈ values, (f value).result store = .ok () := by
  induction values with
  | nil => exact ⟨fun _ => nofun, fun _ => rfl⟩
  | cons value rest ih =>
      have hcons : (value :: rest).forM f = f value >>= fun _ => rest.forM f := rfl
      rw [hcons, result_bind (hf value), Except.bind_eq_ok_iff, List.forall_mem_cons, ← ih]
      constructor
      · rintro ⟨_, hvalue, hrest⟩
        exact ⟨hvalue, hrest⟩
      · rintro ⟨hvalue, hrest⟩
        exact ⟨_, hvalue, hrest⟩

end Switchboard.Disk.Job

/-! ### Jobs in a row -/

namespace Switchboard.Disk.Store

variable {α β : Type} {store store' : Store}

theorem perform_bind_eq_ok_iff {job : Job α} {f : α → Job β} {result : β} :
    store.perform (job >>= f) = (.ok result, store') ↔
      ∃ value found, store.perform job = (.ok value, found) ∧
        found.perform (f value) = (.ok result, store') := by
  rw [perform_bind]
  rcases store.perform job with ⟨fault | value, found⟩
  · simp
  · constructor
    · exact fun h => ⟨value, found, rfl, h⟩
    · rintro ⟨_, _, hjob, h⟩
      cases hjob
      exact h

theorem perform_attempt_eq_ok_iff {action : Action} {path : Path} {script : Script (Except Cause α)}
    {value : α} :
    store.perform (Job.attempt action path script) = (.ok value, store') ↔
      store.run script = (.ok value, store') := by
  rw [Job.attempt, perform_bind, perform_lift]
  rcases store.run script with ⟨_ | found, after⟩ <;> simp [Prod.ext_iff]

end Switchboard.Disk.Store
