import Switchboard.Proofs.Disk.Results

/-!
Runs in which directories are listed in any order. A store lists the entries of a directory in the
order in which it has them itself. A file system promises no order, not even the same one twice. So
here a listing is answered with the entries of the directory in some order (`Store.Shows`), and a run is
a relation (`Store.RunsTo`): a script can end in many ways, but each listing has those entries and every
other request is answered as before.

What does not depend on the order is said in two strengths. A job may end in one way only
(`Job.IgnoresOrder`). Or it may always end with the same value and the same store, except that it fails
with different faults (`Job.FailsAlike`), as it does when it stops at the first entry it does not like.
The second is what is left when a job of the first kind follows one of the second.
-/

namespace Switchboard.Disk

variable {α β : Type} {store after after' : Store}

/-! ### Scripts -/

/-- The ways in which a request can be answered if directories are listed in any order. -/
inductive Store.Shows (store : Store) : (request : Request) → Answer request → Prop
  | served (request : Request) : Shows store request ((answer request).run store).1
  | shuffled {path : Path} {entries shown : List (String × Kind)}
      (hlist : store.list path = .ok entries) (hperm : shown.Perm entries) :
      Shows store (.list path) (.ok shown)

/-- A script can end with a value and a store if directories are listed in any order. -/
inductive Store.RunsTo : Store → Script α → α → Store → Prop
  | done (store : Store) (value : α) : RunsTo store (.done value) value store
  | ask {store after : Store} {request : Request} {next : Answer request → Script α}
      {answer : Answer request} {value : α} (hanswer : store.Shows request answer)
      (hrest : RunsTo ((Store.answer request).run store).2 (next answer) value after) :
      RunsTo store (.ask request next) value after

namespace Store

theorem Shows.eq_of_not_isListing {request : Request} {answer : Answer request}
    (h : store.Shows request answer) (hlisting : request.isListing = false) :
    answer = ((Store.answer request).run store).1 := by
  cases h with
  | served => rfl
  | shuffled => cases hlisting

/-- A listing that is refused is refused in the same way, and one that is granted has the same
entries. -/
theorem shows_list_iff {path : Path} {answer : Except Cause (List (String × Kind))} :
    store.Shows (.list path) answer ↔
      (∃ cause, store.list path = .error cause ∧ answer = .error cause) ∨
      ∃ entries shown, store.list path = .ok entries ∧ shown.Perm entries ∧ answer = .ok shown := by
  have hserved : ((Store.answer (.list path)).run store).1 = store.list path := rfl
  constructor
  · intro h
    cases h with
    | served =>
        rw [hserved]
        cases store.list path with
        | error cause => exact .inl ⟨cause, rfl, rfl⟩
        | ok entries => exact .inr ⟨entries, entries, rfl, .refl entries, rfl⟩
    | shuffled hlist hperm => exact .inr ⟨_, _, hlist, hperm, rfl⟩
  · rintro (⟨cause, hlist, rfl⟩ | ⟨entries, shown, hlist, hperm, rfl⟩)
    · rw [← hlist, ← hserved]
      exact .served _
    · exact .shuffled hlist hperm

/-- One of the runs is that of the store itself. -/
theorem runsTo_run (store : Store) (script : Script α) :
    store.RunsTo script (store.run script).1 (store.run script).2 := by
  induction script generalizing store with
  | done value => exact .done store value
  | ask request next ih => exact .ask (.served request) (ih _ _)

theorem runsTo_bind_iff {script : Script α} {f : α → Script β} {result : β} :
    store.RunsTo (script >>= f) result after ↔
      ∃ value found, store.RunsTo script value found ∧ found.RunsTo (f value) result after := by
  constructor
  · intro h
    induction script generalizing store with
    | done value => exact ⟨value, store, .done store value, h⟩
    | ask request next ih =>
        cases h with
        | ask hanswer hrest =>
            obtain ⟨value, found, hfirst, hsecond⟩ := ih _ hrest
            exact ⟨value, found, .ask hanswer hfirst, hsecond⟩
  · rintro ⟨value, found, hfirst, hsecond⟩
    induction hfirst with
    | done => exact hsecond
    | ask hanswer _ ih => exact .ask hanswer (ih hsecond)

end Store

/-- A script that asks for no listing has one run. -/
theorem Script.Keeps.runsTo_iff {ends : α → Prop} {script : Script α}
    (h : script.Keeps (·.isListing = false) ends) {value : α} :
    store.RunsTo script value after ↔ (value, after) = store.run script := by
  constructor
  · intro hrun
    induction hrun with
    | done => rfl
    | ask hanswer _ ih =>
        cases h with
        | ask hrequest hnext =>
            obtain rfl := hanswer.eq_of_not_isListing hrequest
            exact ih (hnext _)
  · intro heq
    obtain ⟨rfl, rfl⟩ := Prod.mk.inj heq
    exact store.runsTo_run script

/-! ### Jobs -/

/-- A job can end with a result and a store if directories are listed in any order. -/
def Store.Performs (store : Store) (job : Job α) (result : Except Fault α) (after : Store) : Prop :=
  store.RunsTo (ExceptT.run job) result after

theorem Store.performs_bind_iff {job : Job α} {f : α → Job β} {result : Except Fault β} :
    store.Performs (job >>= f) result after ↔
      (∃ value found, store.Performs job (.ok value) found ∧ found.Performs (f value) result after) ∨
        ∃ fault, store.Performs job (.error fault) after ∧ result = .error fault := by
  rw [Performs, ExceptT.run_bind, runsTo_bind_iff]
  constructor
  · rintro ⟨fault | value, found, hjob, hrest⟩
    · cases hrest
      exact .inr ⟨fault, hjob, rfl⟩
    · exact .inl ⟨value, found, hjob, hrest⟩
  · rintro (⟨value, found, hjob, hrest⟩ | ⟨fault, hjob, rfl⟩)
    · exact ⟨.ok value, found, hjob, hrest⟩
    · exact ⟨.error fault, after, hjob, .done _ _⟩

/-- What is listed is listed in some order. -/
theorem Store.performs_lift_list_iff {path : Path}
    {result : Except Fault (Except Cause (List (String × Kind)))} :
    store.Performs (ExceptT.lift (Script.request (.list path))) result after ↔
      after = store ∧ ∃ answer, store.Shows (.list path) answer ∧ result = .ok answer := by
  rw [Performs, ExceptT.run_lift, map_eq_pure_bind, runsTo_bind_iff]
  constructor
  · rintro ⟨answer, found, hrequest, hrest⟩
    cases hrest
    cases hrequest with
    | ask hanswer hdone =>
        cases hdone
        exact ⟨rfl, answer, hanswer, rfl⟩
  · rintro ⟨rfl, answer, hanswer, rfl⟩
    exact ⟨answer, after, .ask hanswer (.done _ _), .done _ _⟩

namespace Store

/-- What is listed for a job is listed in some order, or it is refused. -/
theorem performs_attempt_list_iff {path : Path} {result : Except Fault (List (String × Kind))} :
    store.Performs (Job.attempt .list path (Script.request (.list path))) result after ↔
      after = store ∧ ∃ answer, store.Shows (.list path) answer ∧
        result = answer.mapError (.disk .list path) := by
  rw [Job.attempt, performs_bind_iff]
  constructor
  · rintro (⟨shown, _, hlist, hrest⟩ | ⟨_, hlist, -⟩)
    · obtain ⟨rfl, _, hanswer, heq⟩ := performs_lift_list_iff.1 hlist
      cases heq
      cases shown <;> cases hrest <;> exact ⟨rfl, _, hanswer, rfl⟩
    · obtain ⟨-, _, -, heq⟩ := performs_lift_list_iff.1 hlist
      cases heq
  · rintro ⟨rfl, answer, hanswer, rfl⟩
    refine .inl ⟨answer, after, performs_lift_list_iff.2 ⟨rfl, answer, hanswer, rfl⟩, ?_⟩
    cases answer <;> exact .done _ _

/-- A job that only reads and asks for no listing comes to the same in every run. -/
theorem performs_iff_of_reads {faults faults' : Fault → Prop} {job : Job α}
    (hreads : job.Keeps (·.isReading) faults) (hlists : job.Keeps (·.isListing = false) faults')
    {result : Except Fault α} :
    store.Performs job result after ↔ after = store ∧ result = job.result store := by
  have hperform : store.run (ExceptT.run job) = (job.result store, store) :=
    Job.perform_eq_of_isReading hreads
  rw [Performs, Script.Keeps.runsTo_iff hlists, hperform, Prod.mk.injEq, and_comm]

/-- If another job follows it, that starts from the same store in every run. -/
theorem performs_bind_iff_of_reads {faults faults' : Fault → Prop} {job : Job α}
    (hreads : job.Keeps (·.isReading) faults) (hlists : job.Keeps (·.isListing = false) faults')
    (f : α → Job β) {result : Except Fault β} :
    store.Performs (job >>= f) result after ↔
      match job.result store with
      | .ok value => store.Performs (f value) result after
      | .error fault => after = store ∧ result = .error fault := by
  rw [performs_bind_iff]
  simp only [performs_iff_of_reads hreads hlists]
  cases job.result store with
  | ok value =>
      constructor
      · rintro (⟨_, _, ⟨rfl, heq⟩, hrest⟩ | ⟨_, ⟨-, heq⟩, -⟩) <;> cases heq
        exact hrest
      · exact fun hrest => .inl ⟨value, store, ⟨rfl, rfl⟩, hrest⟩
  | error fault =>
      constructor
      · rintro (⟨_, _, ⟨-, heq⟩, -⟩ | ⟨_, ⟨rfl, heq⟩, rfl⟩) <;> cases heq
        exact ⟨rfl, rfl⟩
      · rintro ⟨rfl, rfl⟩
        exact .inr ⟨fault, ⟨rfl, rfl⟩, rfl⟩

/-- A job that only reads behind a listing comes to what it comes to for the entries in some order. -/
theorem performs_list_bind_iff {faults faults' : Fault → Prop} {path : Path}
    {f : List (String × Kind) → Job β} (hreads : ∀ entries, (f entries).Keeps (·.isReading) faults)
    (hlists : ∀ entries, (f entries).Keeps (·.isListing = false) faults') {result : Except Fault β} :
    store.Performs (Job.attempt .list path (Script.request (.list path)) >>= f) result after ↔
      after = store ∧ ∃ answer, store.Shows (.list path) answer ∧
        result = answer.mapError (.disk .list path) >>= fun entries => (f entries).result store := by
  rw [performs_bind_iff]
  constructor
  · rintro (⟨entries, _, hlist, hrest⟩ | ⟨fault, hlist, rfl⟩)
    · obtain ⟨rfl, shown, hshows, heq⟩ := performs_attempt_list_iff.1 hlist
      obtain ⟨rfl, rfl⟩ := (performs_iff_of_reads (hreads entries) (hlists entries)).1 hrest
      refine ⟨rfl, shown, hshows, ?_⟩
      rw [← heq]
      rfl
    · obtain ⟨rfl, shown, hshows, heq⟩ := performs_attempt_list_iff.1 hlist
      refine ⟨rfl, shown, hshows, ?_⟩
      rw [← heq]
      rfl
  · rintro ⟨rfl, shown, hshows, rfl⟩
    cases shown with
    | ok entries =>
        exact .inl ⟨entries, after, performs_attempt_list_iff.2 ⟨rfl, _, hshows, rfl⟩,
          (performs_iff_of_reads (hreads entries) (hlists entries)).2 ⟨rfl, rfl⟩⟩
    | error cause =>
        exact .inr ⟨_, performs_attempt_list_iff.2 ⟨rfl, _, hshows, rfl⟩, rfl⟩

end Store

namespace Job

/-- In whatever order directories are listed, the job ends in one way. -/
def IgnoresOrder (job : Job α) : Prop :=
  ∀ (store : Store) result after, store.Performs job result after →
    (result, after) = store.perform job

/-- In whatever order directories are listed, the job ends with one value and one store, or it always
fails, and leaves one store behind. -/
def FailsAlike (store : Store) (job : Job α) : Prop :=
  ∀ result after result' after', store.Performs job result after → store.Performs job result' after' →
    after = after' ∧ ∀ value, result = .ok value ↔ result' = .ok value

theorem FailsAlike.cases {job : Job α} (h : FailsAlike store job) {result result' : Except Fault α}
    (hrun : store.Performs job result after) (hrun' : store.Performs job result' after') :
    after = after' ∧ ((∃ value, result = .ok value ∧ result' = .ok value) ∨
      ∃ fault fault', result = .error fault ∧ result' = .error fault') := by
  obtain ⟨hstore, hvalue⟩ := h _ _ _ _ hrun hrun'
  refine ⟨hstore, ?_⟩
  cases result with
  | ok value => exact .inl ⟨value, rfl, (hvalue value).1 rfl⟩
  | error fault =>
      cases result' with
      | ok value => exact nomatch (hvalue value).2 rfl
      | error fault' => exact .inr ⟨fault, fault', rfl, rfl⟩

theorem Keeps.ignoresOrder {faults : Fault → Prop} {job : Job α}
    (h : job.Keeps (·.isListing = false) faults) : job.IgnoresOrder :=
  fun _ _ _ hrun => (Script.Keeps.runsTo_iff h).1 hrun

theorem ignoresOrder_pure (value : α) : (pure value : Job α).IgnoresOrder := by
  intro store result after hrun
  cases hrun
  rfl

theorem IgnoresOrder.bind {job : Job α} {f : α → Job β} (h : job.IgnoresOrder)
    (hf : ∀ value, (f value).IgnoresOrder) : (job >>= f).IgnoresOrder := by
  intro store result after hrun
  rw [Store.perform_bind]
  rcases Store.performs_bind_iff.1 hrun with ⟨value, found, hjob, hrest⟩ | ⟨fault, hjob, rfl⟩
  · rw [← h _ _ _ hjob]
    exact hf value _ _ _ hrest
  · rw [← h _ _ _ hjob]

/-- What is computed from a listing ignores the order if the computation does. -/
theorem ignoresOrder_of_list {path : Path} {f : Except Cause (List (String × Kind)) → Except Fault α}
    (h : ∀ entries shown : List (String × Kind), shown.Perm entries → f (.ok shown) = f (.ok entries)) :
    IgnoresOrder
      (ExceptT.lift (Script.request (.list path)) >>= fun answer => ofExcept (f answer)) := by
  intro store result after hrun
  have hlist : store.perform (ExceptT.lift (Script.request (.list path)) : Job _) =
      (.ok (store.list path), store) := rfl
  rw [Store.perform_bind, hlist]
  rcases Store.performs_bind_iff.1 hrun with ⟨answer, found, hanswer, hrest⟩ | ⟨_, hanswer, -⟩
  · obtain ⟨rfl, _, hshows, heq⟩ := Store.performs_lift_list_iff.1 hanswer
    cases heq
    cases hrest
    rcases Store.shows_list_iff.1 hshows with ⟨cause, hlist, rfl⟩ | ⟨entries, shown, hlist, hperm, rfl⟩
    · rw [hlist]
      rfl
    · rw [hlist, h entries shown hperm]
      rfl
  · obtain ⟨-, _, -, heq⟩ := Store.performs_lift_list_iff.1 hanswer
    cases heq

theorem FailsAlike.bind {job : Job α} {f : α → Job β} (h : FailsAlike store job)
    (hf : ∀ value, (f value).IgnoresOrder) : FailsAlike store (job >>= f) := by
  intro result after result' after' hrun hrun'
  rcases Store.performs_bind_iff.1 hrun with ⟨value, found, hjob, hrest⟩ | ⟨fault, hjob, rfl⟩ <;>
    rcases Store.performs_bind_iff.1 hrun' with ⟨value', found', hjob', hrest'⟩ | ⟨fault', hjob', rfl⟩ <;>
    obtain ⟨rfl, hvalue⟩ := h _ _ _ _ hjob hjob'
  · cases (hvalue value).1 rfl
    have heq := (hf value _ _ _ hrest).trans (hf value _ _ _ hrest').symm
    obtain ⟨rfl, rfl⟩ := Prod.mk.inj heq
    exact ⟨rfl, fun _ => Iff.rfl⟩
  · cases (hvalue value).1 rfl
  · cases (hvalue value').2 rfl
  · exact ⟨rfl, fun value => ⟨nofun, nofun⟩⟩

end Job

end Switchboard.Disk
