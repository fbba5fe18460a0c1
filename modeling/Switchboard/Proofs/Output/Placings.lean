import Switchboard.Proofs.Disk.Results
import Switchboard.Proofs.Output.Directories

/-!
What a run asks to have put in place. A unit takes two requests: its bytes are written to a
temporary file, and the file is moved to the path of the unit. Both may be refused, and a run that
fails asks for no more; so a run asks for the first of the requests that its units take (`Places`),
and for all of them if it succeeds. This is said of the requests of the run and not of the store it
leaves, where one unit may have gone into the place of another.
-/

namespace Switchboard

namespace Disk

/-- A request that gives a file its bytes or its place. -/
def Request.isPlacing : Request → Bool
  | write _ _ | rename _ _ => true
  | inspect _ | read _ | list _ | makeDirectory _ | createTemporary _ | remove _ => false

theorem Request.isPlacing_of_isReading {request : Request} (h : request.isReading) :
    request.isPlacing = false := by
  cases request <;> first | rfl | cases h

namespace Store

variable {α β : Type}

/-- The requests of a run, in order. -/
def asked (store : Store) : Script α → List Request
  | .done _ => []
  | .ask request next =>
    request :: asked ((answer request).run store).2 (next ((answer request).run store).1)

theorem asked_bind (store : Store) (script : Script α) (f : α → Script β) :
    store.asked (script >>= f) =
      store.asked script ++ (store.run script).2.asked (f (store.run script).1) := by
  induction script generalizing store with
  | done value => rfl
  | ask request next ih => exact congrArg (request :: ·) (ih _ _)

/-- What a run of a job asks to have put in place. -/
def placings (store : Store) (job : Job α) : List Request :=
  (store.asked job.run).filter (·.isPlacing)

theorem placings_lift (store : Store) (request : Request) :
    store.placings (ExceptT.lift (Script.request request) : Job (Answer request)) =
      [request].filter (·.isPlacing) := rfl

/-- Behind a job that fails nothing is asked. -/
theorem placings_bind (store : Store) (job : Job α) (f : α → Job β) :
    store.placings (job >>= f) = store.placings job ++
      match store.perform job with
      | (.ok value, found) => found.placings (f value)
      | (.error _, _) => [] := by
  rw [placings, ExceptT.run_bind, asked_bind, List.filter_append, perform]
  rcases store.run job.run with ⟨fault | value, found⟩ <;> rfl

theorem placings_of_keeps {job : Job α} {asks : Request → Prop} {faults : Fault → Prop}
    (h : job.Keeps asks faults) (hasks : ∀ request, asks request → request.isPlacing = false)
    (store : Store) : store.placings job = [] := by
  have hasked {script : Script (Except Fault α)} {ends : Except Fault α → Prop}
      (hscript : script.Keeps asks ends) (store : Store) :
      (store.asked script).filter (·.isPlacing) = [] := by
    induction hscript generalizing store with
    | done _ => rfl
    | ask hrequest _ ih =>
        rw [asked, List.filter_cons_of_neg (by simp [hasks _ hrequest])]
        exact ih _ _
  exact hasked h store

/-- The run asks for the first of the given requests, and for all of them if it succeeds. -/
structure Places (store : Store) (job : Job α) (requests : List Request) : Prop where
  isPrefix : store.placings job <+: requests
  complete : ∀ value found, store.perform job = (.ok value, found) → store.placings job = requests

namespace Places

variable {store : Store} {job : Job α} {f : α → Job β} {requests : List Request}

theorem pure (value : α) : store.Places (pure value) [] :=
  ⟨List.nil_prefix, fun _ _ _ => rfl⟩

theorem of_keeps {asks : Request → Prop} {faults : Fault → Prop} (h : job.Keeps asks faults)
    (hasks : ∀ request, asks request → request.isPlacing = false) : store.Places job [] :=
  have hnone := placings_of_keeps h hasks store
  ⟨hnone.symm ▸ List.prefix_rfl, fun _ _ _ => hnone⟩

/-- A job that is sure to fail may leave requests out. -/
theorem of_fails (h : store.placings job = [])
    (hfails : ∀ value found, store.perform job ≠ (.ok value, found)) (requests : List Request) :
    store.Places job requests :=
  ⟨h.symm ▸ List.nil_prefix, fun _ _ hok => absurd hok (hfails _ _)⟩

/-- What comes second may be known only when the first job has succeeded. -/
theorem bind {ι : Type} [Nonempty ι] {more : ι → List Request} (h : store.Places job requests)
    (hf : ∀ value found, store.perform job = (.ok value, found) →
      ∃ i, found.Places (f value) (more i)) :
    ∃ i, store.Places (job >>= f) (requests ++ more i) := by
  rcases hjob : store.perform job with ⟨fault | value, found⟩
  · obtain ⟨i⟩ := ‹Nonempty ι›
    have hplacings : store.placings (job >>= f) = store.placings job := by
      rw [placings_bind, hjob, List.append_nil]
    refine ⟨i, ?_, fun value found hok => ?_⟩
    · rw [hplacings]
      exact h.isPrefix.trans (List.prefix_append _ _)
    · rw [perform_bind, hjob] at hok
      cases hok
  · obtain ⟨i, hrest⟩ := hf value found hjob
    have hplacings : store.placings (job >>= f) = requests ++ found.placings (f value) := by
      rw [placings_bind, hjob, h.complete value found hjob]
    refine ⟨i, ?_, fun last after hok => ?_⟩
    · rw [hplacings]
      exact (List.prefix_append_right_inj _).2 hrest.isPrefix
    · rw [perform_bind, hjob] at hok
      rw [hplacings, hrest.complete last after hok]

/-- What comes second is known beforehand. -/
theorem bind_const {more : List Request} (h : store.Places job requests)
    (hf : ∀ value found, store.perform job = (.ok value, found) →
      found.Places (f value) more) :
    store.Places (job >>= f) (requests ++ more) := by
  obtain ⟨_, hplaces⟩ : ∃ _ : Unit, store.Places (job >>= f) (requests ++ more) :=
    h.bind fun value found hjob => ⟨(), hf value found hjob⟩
  exact hplaces

/-- Nothing comes second. -/
theorem bind_nothing (h : store.Places job requests)
    (hf : ∀ value found, store.perform job = (.ok value, found) → found.Places (f value) []) :
    store.Places (job >>= f) requests := by
  have hplaces := h.bind_const hf
  rwa [List.append_nil] at hplaces

end Places

end Store

end Disk

/-! ### Units -/

namespace Output

open Disk

/-- The requests that put bytes at a path, by way of a temporary file. -/
def unitRequests (path : Path) (bytes : ByteArray) (temporary : Path) : List Request :=
  [.write temporary bytes, .rename temporary path]

variable {store : Store}

theorem places_abandon (temporary : Path) (fault : Fault) (requests : List Request) :
    store.Places (abandon temporary fault) requests := by
  have hremove : (Request.remove temporary).isPlacing = false := rfl
  have hkeeps : (abandon temporary fault).Keeps (·.isPlacing = false) fun _ => True :=
    (Job.keeps_lift (Script.keeps_request hremove)).bind fun _ => Job.keeps_fail trivial
  refine .of_fails (Store.placings_of_keeps hkeeps (fun _ h => h) store)
    (fun value found hok => ?_) requests
  rw [abandon, Store.perform_bind, Store.perform_lift] at hok
  cases hok

theorem places_lift (request : Request) (h : request.isPlacing) :
    store.Places (ExceptT.lift (Script.request request) : Job (Answer request)) [request] := by
  have hplacings := store.placings_lift request
  rw [List.filter_cons_of_pos h] at hplacings
  exact ⟨hplacings ▸ List.prefix_rfl, fun _ _ _ => hplacings⟩

theorem exists_places_writeUnit (store : Store) (path : Path) (text : String) :
    ∃ temporary, store.Places (writeUnit path text) (unitRequests path text.toUTF8 temporary) := by
  have hkeeps {α : Type} {action : Action} {directory : Path} {script : Script (Except Cause α)}
      (h : script.Keeps (·.isPlacing = false) fun _ => True) :
      (Job.attempt action directory script).Keeps (·.isPlacing = false) fun _ => True :=
    Job.keeps_attempt h fun _ => trivial
  have hensure : (ensureDirectory path.directory).Keeps (·.isPlacing = false) fun _ => True :=
    keeps_ensureDirectories fun _ _ => ⟨rfl, rfl⟩
  have hcreate : (Script.request (.createTemporary path.directory)).Keeps (·.isPlacing = false)
      fun _ => True := Script.keeps_request rfl
  refine (Store.Places.of_keeps (hkeeps hensure) fun _ h => h).bind fun _ found _ => ?_
  refine (Store.Places.of_keeps (hkeeps hcreate) fun _ h => h).bind
    fun temporary found _ => ⟨temporary, ?_⟩
  -- From here on the temporary file is known, and with it both requests.
  refine (places_lift (.write temporary text.toUTF8) rfl).bind_const fun written found _ => ?_
  cases written with
  | error cause => exact places_abandon _ _ _
  | ok _ =>
      refine (places_lift (.rename temporary path) rfl).bind_nothing fun renamed after _ => ?_
      cases renamed with
      | error cause => exact places_abandon _ _ _
      | ok _ => exact .pure ()

/-- The run asks for the interface unit of a class and then for its implementation unit. -/
def PlacesUnits {α : Type} (store : Store) (job : Job α) (layout : Layout)
    (className interface implementation : String) : Prop :=
  ∃ temporary temporary', store.Places job
    (unitRequests (layout.interfacePath className) interface.toUTF8 temporary ++
      unitRequests (layout.implementationPath className) implementation.toUTF8 temporary')

theorem placesUnits_writeArtifact (store : Store) (layout : Layout) (indent : Indent)
    (artifact : Artifact) :
    PlacesUnits store (writeArtifact layout indent artifact) layout artifact.className
      (artifact.interfaceText indent) (artifact.implementationText indent) := by
  obtain ⟨temporary, hinterface⟩ := exists_places_writeUnit store
    (layout.interfacePath artifact.className) (artifact.interfaceText indent)
  refine ⟨temporary, hinterface.bind fun _ found _ => ?_⟩
  obtain ⟨temporary', himplementation⟩ := exists_places_writeUnit found
    (layout.implementationPath artifact.className) (artifact.implementationText indent)
  exact ⟨temporary', himplementation.bind_nothing fun _ _ _ => .pure _⟩

end Output

end Switchboard
