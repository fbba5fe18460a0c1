import Switchboard.Disk.Store

/-!
What a script can ask and how it can end, whatever it is answered. `Script.Keeps` is a statement about
the syntax of a script: it bounds the requests on every branch and the results at the ends. Since no
answer is ruled out, it holds in every store, and in a file system that refuses requests for reasons
no store has. A job that keeps to its bounds does so piece by piece, so one lemma for each way of
putting jobs together settles whole programs.

In a store the bounds turn into an invariant. What every request of a script preserves is preserved by
its run; a script that only reads preserves everything.
-/

namespace Switchboard.Disk

namespace Request

/-- A request that is only asked to learn something. -/
def isReading : Request → Bool
  | inspect _ | read _ | list _ => true
  | makeDirectory _ | createTemporary _ | write _ _ | rename _ _ | remove _ => false

/-- A request for the entries of a directory. -/
def isListing : Request → Bool
  | list _ => true
  | inspect _ | read _ | makeDirectory _ | createTemporary _ | write _ _ | rename _ _ | remove _ =>
    false

end Request

theorem Store.answer_of_isReading {request : Request} (h : request.isReading) (store : Store) :
    ((Store.answer request).run store).2 = store := by
  cases request with
  | inspect path => rfl
  | read path => rfl
  | list path => rfl
  | makeDirectory path => cases h
  | createTemporary directory => cases h
  | write path bytes => cases h
  | rename source target => cases h
  | remove path => cases h

/-! ### Scripts -/

namespace Script

variable {α β : Type} {asks : Request → Prop} {ends : α → Prop} {ends' : β → Prop}

/-- Whatever the answers are, the script asks and ends as described. -/
inductive Keeps (asks : Request → Prop) (ends : α → Prop) : Script α → Prop
  | done {value : α} (hvalue : ends value) : Keeps asks ends (.done value)
  | ask {request : Request} {next : Answer request → Script α} (hrequest : asks request)
    (hnext : ∀ answer, Keeps asks ends (next answer)) : Keeps asks ends (.ask request next)

theorem Keeps.bind {script : Script α} {f : α → Script β} (h : script.Keeps asks ends)
    (hf : ∀ value, ends value → (f value).Keeps asks ends') :
    (script >>= f).Keeps asks ends' := by
  induction h with
  | done hvalue => exact hf _ hvalue
  | ask hrequest _ ih => exact .ask hrequest ih

theorem keeps_request {request : Request} (h : asks request) :
    (Script.request request).Keeps asks fun _ => True :=
  .ask h fun _ => .done trivial

theorem Keeps.ends_run {script : Script α} (h : script.Keeps asks ends) (store : Store) :
    ends (store.run script).1 := by
  induction h generalizing store with
  | done hvalue => exact hvalue
  | ask _ _ ih => exact ih _ _

/-- A run preserves what each of its requests preserves. -/
theorem Keeps.run_invariant {invariant : Store → Prop}
    (hasks : ∀ request, asks request → ∀ store, invariant store →
      invariant ((Store.answer request).run store).2)
    {script : Script α} (h : script.Keeps asks ends) {store : Store} (hstore : invariant store) :
    invariant (store.run script).2 := by
  induction h generalizing store with
  | done _ => exact hstore
  | ask hrequest _ ih => exact ih _ (hasks _ hrequest store hstore)

/-- A script that only reads leaves the store as it is. -/
theorem Keeps.run_of_isReading {script : Script α}
    (h : script.Keeps (·.isReading) ends) (store : Store) : (store.run script).2 = store := by
  have hasks : ∀ request : Request, request.isReading → ∀ found, found = store →
      ((Store.answer request).run found).2 = store := by
    intro request hrequest found hfound
    rw [Store.answer_of_isReading hrequest, hfound]
  exact h.run_invariant hasks rfl

end Script

/-! ### Jobs -/

namespace Job

variable {α β : Type} {asks : Request → Prop} {faults : Fault → Prop}

/-- Whatever the answers are, the job asks only some requests and ends with some faults only. -/
def Keeps (asks : Request → Prop) (faults : Fault → Prop) (job : Job α) : Prop :=
  Script.Keeps asks (fun
    | .ok _ => True
    | .error fault => faults fault) (ExceptT.run job)

theorem keeps_pure (value : α) : Keeps asks faults (pure value : Job α) :=
  .done trivial

theorem keeps_fail {fault : Fault} (h : faults fault) : Keeps asks faults (fail fault : Job α) :=
  .done h

theorem keeps_ofExcept {result : Except Fault α} (h : ∀ fault, result = .error fault → faults fault) :
    Keeps asks faults (ofExcept result) := by
  cases result with
  | ok value => exact .done trivial
  | error fault => exact .done (h fault rfl)

theorem keeps_lift {script : Script α} {ends : α → Prop} (h : script.Keeps asks ends) :
    Keeps asks faults (ExceptT.lift script : Job α) := by
  unfold Keeps
  rw [ExceptT.run_lift, map_eq_pure_bind]
  exact h.bind fun _ _ => .done trivial

theorem Keeps.bind {job : Job α} {f : α → Job β} (h : Keeps asks faults job)
    (hf : ∀ value, Keeps asks faults (f value)) : Keeps asks faults (job >>= f) := by
  unfold Keeps
  rw [ExceptT.run_bind]
  apply Script.Keeps.bind h
  intro result hresult
  cases result with
  | ok value => exact hf value
  | error fault => exact .done hresult

theorem keeps_attempt {action : Action} {path : Path} {script : Script (Except Cause α)}
    {ends : Except Cause α → Prop} (h : script.Keeps asks ends)
    (hfault : ∀ cause, faults (.disk action path cause)) :
    Keeps asks faults (attempt action path script) := by
  refine (keeps_lift h).bind fun result => ?_
  cases result with
  | ok value => exact keeps_pure value
  | error cause => exact keeps_fail (hfault cause)

theorem keeps_forM {f : α → Job PUnit} {values : List α} (hf : ∀ value, Keeps asks faults (f value)) :
    Keeps asks faults (values.forM f) := by
  induction values with
  | nil => exact keeps_pure _
  | cons value rest ih => exact (hf value).bind fun _ => ih

theorem keeps_mapM {f : α → Job β} {values : List α} (hf : ∀ value, Keeps asks faults (f value)) :
    Keeps asks faults (values.mapM f) := by
  induction values with
  | nil => exact keeps_pure _
  | cons value rest ih =>
      rw [List.mapM_cons]
      exact (hf value).bind fun _ => ih.bind fun _ => keeps_pure _

/-- The fault of a job is one of those it keeps to. -/
theorem Keeps.fault_perform {job : Job α} (h : Keeps asks faults job) {store store' : Store}
    {fault : Fault} (hrun : store.perform job = (.error fault, store')) : faults fault := by
  have hends := Script.Keeps.ends_run h store
  have hresult : (store.run (ExceptT.run job)).1 = .error fault := congrArg Prod.fst hrun
  rwa [hresult] at hends

/-- A job that only reads leaves the store as it is. -/
theorem Keeps.perform_of_isReading {job : Job α} (h : Keeps (·.isReading) faults job)
    (store : Store) : (store.perform job).2 = store :=
  Script.Keeps.run_of_isReading h store

end Job

end Switchboard.Disk
