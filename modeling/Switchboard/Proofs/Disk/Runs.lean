import Switchboard.Proofs.Disk.Changes
import Switchboard.Proofs.Disk.Requests

/-!
Runs that may go wrong. A store answers every request as it should. A file system does not: it can
refuse a request for a reason of its own, a full disk or a missing permission, when it refuses to
write it may already have written something, and it names temporary files as it likes.
`Store.Answers` allows all of that. What a file system may refuse and how it may name temporary files
is a parameter (`System`), and what is relied on in that is said where it is. Besides, what is there
is never said to be missing.

`Script.Run` is a run up to any point. The script that is left tells how far the run has got: it can
be stopped anywhere, and it has ended when nothing but a result is left.

`Script.Safe` is what is proved about scripts. A statement about the end of a run says nothing about
a run that is stopped, and a statement about all stores in between says too little about the end, so
the judgment has both: `always` holds wherever the run is stopped, and `ends` holds of the result and
the store at the end. The rules follow the ways in which scripts and jobs are put together. The only
one with content is the rule for a request, which has to be answered for every answer.
-/

namespace Switchboard.Disk

/-- What a file system is free to do. -/
structure System where
  /-- The names it may give to temporary files besides those a store gives. -/
  mayName : String → Prop
  /-- The requests it may refuse for a reason of its own. -/
  mayRefuse : Request → Prop

namespace System

def IsTemporaryName (system : System) (name : String) : Prop :=
  system.mayName name ∨ ∃ number, name = Store.temporaryName number

/-- The names of temporary files begin with a dot. -/
def HidesTemporaries (system : System) : Prop :=
  ∀ name, system.mayName name → Path.IsName name ∧ name.toList.head? = some '.'

/-- A temporary file is taken away when that is asked for. -/
def RemovesTemporaries (system : System) : Prop :=
  ∀ path name, path.fileName? = some name → system.IsTemporaryName name →
    ¬ system.mayRefuse (.remove path)

variable {system : System} {name : String}

theorem HidesTemporaries.isName (h : system.HidesTemporaries) (hname : system.IsTemporaryName name) :
    Path.IsName name := by
  rcases hname with hname | ⟨number, rfl⟩
  · exact (h name hname).1
  · exact Store.isName_temporaryName number

theorem HidesTemporaries.head? (h : system.HidesTemporaries) (hname : system.IsTemporaryName name) :
    name.toList.head? = some '.' := by
  rcases hname with hname | ⟨number, rfl⟩
  · exact (h name hname).2
  · exact Store.head?_temporaryName number

/-- A file system that may refuse everything but to remove hidden files. -/
def unreliable : System where
  mayName name := Path.IsName name ∧ name.toList.head? = some '.'
  mayRefuse
    | .remove path => ∀ name, path.fileName? = some name → name.toList.head? ≠ some '.'
    | _ => True

end System

/-- The ways in which a file system can answer, with the store it has afterwards. -/
inductive Store.Answers (system : System) (store : Store) :
    (request : Request) → Answer request → Store → Prop
  | served (request : Request) :
      Answers system store request ((answer request).run store).1 ((answer request).run store).2
  /-- A temporary file under a name that is not in use. -/
  | created {directory : Path} {name : String} {entry : Location × String}
      (hname : system.mayName name) (hentry : store.locateEntry (directory.join name) = .ok entry)
      (hunused : store.node? (entry.2 :: entry.1) = none) :
      Answers system store (.createTemporary directory) (.ok (directory.join name))
        (store.put (entry.2 :: entry.1) (.file (.regular ByteArray.empty)))
  | refused {request : Request} {cause : Cause} (hcause : cause ≠ .missing)
      (hrefuse : system.mayRefuse request) : Answers system store request (.error cause) store
  /-- A refused write that has left some content in the file. -/
  | torn {path : Path} {bytes found : ByteArray} {store' : Store} (cause : Cause)
      (hrefuse : system.mayRefuse (.write path bytes))
      (hwrite : store.write path found = .ok store') :
      Answers system store (.write path bytes) (.error cause) store'

namespace Store.Answers

variable {system : System} {store found : Store} {request : Request} {answer : Answer request}

theorem continues (hlinkless : store.Linkless) (h : store.Answers system request answer found) :
    store.Continues found := by
  cases h with
  | served => exact continues_answer hlinkless request
  | created _ _ hunused =>
      exact continues_put hlinkless (List.cons_ne_nil _ _) nofun (by simp [hunused])
  | refused => exact .refl hlinkless
  | @torn path bytes content store' cause _ hwrite =>
      have hserved : ((Store.answer (.write path content)).run store).2 = found := by
        rw [show (Store.answer (.write path content)).run store =
          store.changed (store.write path content) from rfl, hwrite]
        rfl
      exact hserved ▸ continues_answer hlinkless (.write path content)

theorem eq_of_isReading (hreading : request.isReading) (h : store.Answers system request answer found) :
    found = store := by
  cases h with
  | served => exact answer_of_isReading hreading store
  | created => cases hreading
  | refused => rfl
  | torn => cases hreading

/-! ### What an answer tells -/

theorem read_cases {path : Path} {answer : Answer (.read path)}
    (h : store.Answers system (.read path) answer found) :
    found = store ∧ ∀ bytes, answer = .ok bytes → store.read path = .ok bytes := by
  refine ⟨eq_of_isReading rfl h, ?_⟩
  cases h with
  | served => exact fun bytes hbytes => hbytes
  | refused => rintro bytes ⟨⟩

theorem list_cases {path : Path} {answer : Answer (.list path)}
    (h : store.Answers system (.list path) answer found) :
    found = store ∧ (answer = store.list path ∨ ∃ cause, answer = .error cause ∧ cause ≠ .missing) := by
  refine ⟨eq_of_isReading rfl h, ?_⟩
  cases h with
  | served => exact .inl rfl
  | @refused _ cause hcause => exact .inr ⟨cause, rfl, hcause⟩

/-- A change is made, or it is refused and nothing has happened. -/
theorem changed_cases {change : Except Cause Store} {answer : Except Cause Unit}
    (h : (answer, found) = store.changed change) :
    answer = .ok () ∧ change = .ok found ∨ (∃ cause, answer = .error cause) ∧ found = store := by
  cases change with
  | ok store' =>
      cases h
      exact .inl ⟨rfl, rfl⟩
  | error cause =>
      cases h
      exact .inr ⟨⟨cause, rfl⟩, rfl⟩

theorem makeDirectory_cases {path : Path} {answer : Answer (.makeDirectory path)}
    (h : store.Answers system (.makeDirectory path) answer found) :
    answer = .ok () ∧ store.makeDirectory path = .ok found ∨
      (∃ cause, answer = .error cause) ∧ found = store := by
  cases h with
  | served => exact changed_cases rfl
  | @refused _ cause => exact .inr ⟨⟨cause, rfl⟩, rfl⟩

theorem createTemporary_cases (hlinkless : store.Linkless) {directory : Path}
    {answer : Answer (.createTemporary directory)}
    (h : store.Answers system (.createTemporary directory) answer found) :
    (∃ name, system.IsTemporaryName name ∧ answer = .ok (directory.join name) ∧
      (∃ entry, store.locateEntry (directory.join name) = .ok entry) ∧
      store.node? (store.place (directory.join name)) = none ∧
      found = store.put (store.place (directory.join name)) (.file (.regular ByteArray.empty))) ∨
    (∃ cause, answer = .error cause) ∧ found = store := by
  cases h with
  | served =>
      unfold Store.answer StateT.run
      cases hcreate : store.createTemporary directory with
      | ok made =>
          obtain ⟨temporary, found⟩ := made
          obtain ⟨number, rfl, hentry, hunused, rfl⟩ := createTemporary_eq_ok hlinkless hcreate
          exact .inl ⟨_, .inr ⟨number, rfl⟩, by simp [hcreate], hentry, hunused, by simp [hcreate]⟩
      | error cause => exact .inr ⟨⟨cause, by simp [hcreate]⟩, by simp [hcreate]⟩
  | @created _ name entry hname hentry hunused =>
      rw [← place_of_locateEntry hlinkless hentry] at hunused ⊢
      exact .inl ⟨name, .inl hname, rfl, ⟨entry, hentry⟩, hunused, rfl⟩
  | @refused _ cause => exact .inr ⟨⟨cause, rfl⟩, rfl⟩

theorem write_cases {path : Path} {bytes : ByteArray} {answer : Answer (.write path bytes)}
    (h : store.Answers system (.write path bytes) answer found) :
    answer = .ok () ∧ store.write path bytes = .ok found ∨
      (∃ cause, answer = .error cause) ∧
        (found = store ∨ ∃ content, store.write path content = .ok found) := by
  cases h with
  | served => exact (changed_cases rfl).imp_right fun h => ⟨h.1, .inl h.2⟩
  | @refused _ cause => exact .inr ⟨⟨cause, rfl⟩, .inl rfl⟩
  | torn cause _ hwrite => exact .inr ⟨⟨cause, rfl⟩, .inr ⟨_, hwrite⟩⟩

theorem rename_cases {source target : Path} {answer : Answer (.rename source target)}
    (h : store.Answers system (.rename source target) answer found) :
    answer = .ok () ∧ store.rename source target = .ok found ∨
      (∃ cause, answer = .error cause) ∧ found = store := by
  cases h with
  | served => exact changed_cases rfl
  | @refused _ cause => exact .inr ⟨⟨cause, rfl⟩, rfl⟩

theorem remove_cases {path : Path} {answer : Answer (.remove path)}
    (h : store.Answers system (.remove path) answer found) :
    answer = .ok () ∧ store.remove path = .ok found ∨
      (∃ cause, answer = .error cause) ∧ found = store := by
  cases h with
  | served => exact changed_cases rfl
  | @refused _ cause => exact .inr ⟨⟨cause, rfl⟩, rfl⟩

/-- What can be removed is removed, if that is not refused. -/
theorem remove_of_not_mayRefuse {path : Path} {answer : Answer (.remove path)}
    (hrefuse : ¬ system.mayRefuse (.remove path)) {store' : Store}
    (hremove : store.remove path = .ok store') (h : store.Answers system (.remove path) answer found) :
    found = store' := by
  cases h with
  | served =>
      rw [show (Store.answer (.remove path)).run store =
        store.changed (store.remove path) from rfl, hremove]
      rfl
  | refused _ hrefused => exact absurd hrefused hrefuse

end Store.Answers

namespace Script

variable {α β : Type}

/-- A run of a script up to some point: the store there, and the script that is left. -/
inductive Run (system : System) : Store → Script α → Store → Script α → Prop
  | stop (store : Store) (script : Script α) : Run system store script store script
  | ask {store found store' : Store} {request : Request} {next : Answer request → Script α}
      {answer : Answer request} {rest : Script α} (hanswer : store.Answers system request answer found)
      (hrest : Run system found (next answer) store' rest) :
      Run system store (.ask request next) store' rest

/-- If all requests are served, the run is that of the store. -/
theorem run_served (system : System) (store : Store) (script : Script α) :
    Run system store script (store.run script).2 (.done (store.run script).1) := by
  induction script generalizing store with
  | done value => exact .stop store _
  | ask request next ih => exact .ask (.served request) (ih _ _)

/-- A script that has run to its end has run through its parts. -/
theorem Run.bind_done {system : System} {store store' : Store} {script : Script α} {f : α → Script β}
    {result : β} (h : Run system store (script >>= f) store' (.done result)) :
    ∃ middle value, Run system store script middle (.done value) ∧
      Run system middle (f value) store' (.done result) := by
  induction script generalizing store with
  | done value => exact ⟨store, value, .stop store _, h⟩
  | ask request next ih =>
      rw [ask_bind] at h
      cases h with
      | ask hanswer hrest =>
          obtain ⟨middle, value, hscript, hf⟩ := ih _ hrest
          exact ⟨middle, value, .ask hanswer hscript, hf⟩

/-! ### Safety -/

/-- Wherever a run of the script is stopped, `always` holds of the store; when it has ended, `ends`
holds of the result and the store. -/
def Safe (system : System) (always : Store → Prop) (ends : α → Store → Prop) (store : Store)
    (script : Script α) : Prop :=
  ∀ store' rest, Run system store script store' rest →
    always store' ∧ ∀ value, rest = .done value → ends value store'

variable {system : System} {always : Store → Prop} {ends : α → Store → Prop} {ends' : β → Store → Prop}
  {store : Store}

theorem safe_done {value : α} (halways : always store) (hends : ends value store) :
    Safe system always ends store (.done value) := by
  rintro store' rest (_ | _)
  exact ⟨halways, fun found hfound => by cases hfound; exact hends⟩

theorem safe_ask {request : Request} {next : Answer request → Script α} (halways : always store)
    (h : ∀ answer found, store.Answers system request answer found →
      Safe system always ends found (next answer)) :
    Safe system always ends store (.ask request next) := by
  intro store' rest hrun
  cases hrun with
  | stop => exact ⟨halways, fun value hvalue => by cases hvalue⟩
  | ask hanswer hrest => exact h _ _ hanswer _ _ hrest

theorem Safe.here {script : Script α} (h : Safe system always ends store script) : always store :=
  (h store script (.stop store script)).1

theorem Safe.mono {always' : Store → Prop} {ends' : α → Store → Prop} {script : Script α}
    (h : Safe system always ends store script) (halways : ∀ found, always found → always' found)
    (hends : ∀ value found, ends value found → ends' value found) :
    Safe system always' ends' store script := by
  intro store' rest hrun
  obtain ⟨hstore, hvalue⟩ := h store' rest hrun
  exact ⟨halways _ hstore, fun value hrest => hends _ _ (hvalue value hrest)⟩

/-- What always holds also holds at the end. -/
theorem Safe.and_always {script : Script α} (h : Safe system always ends store script) :
    Safe system always (fun value found => always found ∧ ends value found) store script := by
  intro store' rest hrun
  obtain ⟨hstore, hvalue⟩ := h store' rest hrun
  exact ⟨hstore, fun value hrest => ⟨hstore, hvalue value hrest⟩⟩

theorem Safe.bind {script : Script α} {f : α → Script β} (h : Safe system always ends store script)
    (hf : ∀ value found, always found → ends value found → Safe system always ends' found (f value)) :
    Safe system always ends' store (script >>= f) := by
  induction script generalizing store with
  | done value => exact hf value store h.here ((h store _ (.stop store _)).2 value rfl)
  | ask request next ih =>
      rw [ask_bind]
      refine safe_ask h.here fun answer found hanswer => ih answer fun store' rest hrest => ?_
      exact h store' rest (.ask hanswer hrest)

theorem safe_request (request : Request) {ends : Answer request → Store → Prop}
    (halways : always store)
    (h : ∀ answer found, store.Answers system request answer found → always found ∧ ends answer found) :
    Safe system always ends store (Script.request request) :=
  safe_ask halways fun answer found hanswer =>
    safe_done (h answer found hanswer).1 (h answer found hanswer).2

/-- What the requests of a script preserve holds wherever the script is stopped. -/
theorem Keeps.safe {asks : Request → Prop} {ends : α → Prop} {script : Script α}
    (h : script.Keeps asks ends)
    (hasks : ∀ request, asks request → ∀ store, always store → ∀ answer found,
      store.Answers system request answer found → always found) (hstore : always store) :
    Safe system always (fun value found => ends value ∧ always found) store script := by
  induction h generalizing store with
  | done hvalue => exact safe_done hstore ⟨hvalue, hstore⟩
  | ask hrequest _ ih =>
      exact safe_ask hstore fun answer found hanswer =>
        ih answer (hasks _ hrequest store hstore answer found hanswer)

/-- However a run ends, it ends as the script does on every branch. -/
theorem Keeps.ends_of_run {asks : Request → Prop} {ends : α → Prop} {script : Script α}
    (h : script.Keeps asks ends) {store' : Store} {value : α}
    (hrun : Run system store script store' (.done value)) : ends value :=
  have hsafe : script.Safe system (fun _ => True) (fun value _ => ends value ∧ True) store :=
    h.safe (fun _ _ _ _ _ _ _ => trivial) trivial
  ((hsafe store' _ hrun).2 value rfl).1

end Script

/-! ### Jobs -/

/-- A job that has failed has failed in one of its parts. -/
theorem Job.run_bind_error {α β : Type} {system : System} {store store' : Store} {job : Job α}
    {f : α → Job β} {fault : Fault}
    (h : Script.Run system store (ExceptT.run (job >>= f)) store' (.done (.error fault))) :
    Script.Run system store (ExceptT.run job) store' (.done (.error fault)) ∨
      ∃ middle value, Script.Run system store (ExceptT.run job) middle (.done (.ok value)) ∧
        Script.Run system middle (ExceptT.run (f value)) store' (.done (.error fault)) := by
  rw [ExceptT.run_bind] at h
  obtain ⟨middle, result, hjob, hf⟩ := h.bind_done
  cases result with
  | ok value => exact .inr ⟨middle, value, hjob, hf⟩
  | error found =>
      cases hf
      exact .inl hjob

/-- What is claimed of a result and a store, for values and for errors. -/
def outcome {ε α : Type} (ends : α → Store → Prop) (fails : ε → Store → Prop) :
    Except ε α → Store → Prop
  | .ok value => ends value
  | .error error => fails error

namespace Job

variable {α β : Type}

/-- The judgment for jobs, whose end is a value or a fault. -/
def Safe (system : System) (always : Store → Prop) (ends : α → Store → Prop)
    (fails : Fault → Store → Prop) (store : Store) (job : Job α) : Prop :=
  Script.Safe system always (outcome ends fails) store (ExceptT.run job)

variable {system : System} {always : Store → Prop} {ends : α → Store → Prop} {ends' : β → Store → Prop}
  {fails : Fault → Store → Prop} {store : Store}

theorem safe_pure {value : α} (halways : always store) (hends : ends value store) :
    Safe system always ends fails store (pure value) :=
  Script.safe_done halways hends

theorem safe_fail {fault : Fault} (halways : always store) (hfails : fails fault store) :
    Safe system always ends fails store (fail fault) :=
  Script.safe_done halways hfails

theorem safe_ofExcept {result : Except Fault α} (halways : always store)
    (hends : ∀ value, result = .ok value → ends value store)
    (hfails : ∀ fault, result = .error fault → fails fault store) :
    Safe system always ends fails store (ofExcept result) := by
  cases result with
  | ok value => exact Script.safe_done halways (hends value rfl)
  | error fault => exact Script.safe_done halways (hfails fault rfl)

theorem safe_lift {script : Script α} (h : script.Safe system always ends store) :
    Safe system always ends fails store (ExceptT.lift script) := by
  unfold Safe
  rw [ExceptT.run_lift, map_eq_pure_bind]
  exact Script.Safe.bind h fun value found halways hvalue => Script.safe_done halways hvalue

theorem Safe.bind {job : Job α} {f : α → Job β} (h : Safe system always ends fails store job)
    (hf : ∀ value found, always found → ends value found →
      Safe system always ends' fails found (f value)) :
    Safe system always ends' fails store (job >>= f) := by
  unfold Safe
  rw [ExceptT.run_bind]
  refine Script.Safe.bind h fun result found halways hresult => ?_
  cases result with
  | ok value => exact hf value found halways hresult
  | error fault => exact Script.safe_done halways hresult

theorem Safe.mono {always' : Store → Prop} {ends' : α → Store → Prop} {fails' : Fault → Store → Prop}
    {job : Job α} (h : Safe system always ends fails store job)
    (halways : ∀ found, always found → always' found)
    (hends : ∀ value found, ends value found → ends' value found)
    (hfails : ∀ fault found, fails fault found → fails' fault found) :
    Safe system always' ends' fails' store job := by
  refine Script.Safe.mono h halways fun result found hresult => ?_
  cases result with
  | ok value => exact hends value found hresult
  | error fault => exact hfails fault found hresult

theorem safe_attempt {action : Action} {path : Path} {script : Script (Except Cause α)}
    (h : script.Safe system always (outcome ends fun cause => fails (.disk action path cause)) store) :
    Safe system always ends fails store (attempt action path script) := by
  refine (safe_lift h).bind fun result found halways hresult => ?_
  cases result with
  | ok value => exact safe_pure halways hresult
  | error cause => exact safe_fail halways hresult

/-- The job leaves the store as it is, wherever it is stopped, and returns only what is described. -/
abbrev Finds (system : System) (store : Store) (ends : α → Prop) (job : Job α) : Prop :=
  Safe system (· = store) (fun value _ => ends value) (fun _ _ => True) store job

theorem Finds.bind {ends : α → Prop} {ends' : β → Prop} {job : Job α} {f : α → Job β}
    (h : Finds system store ends job) (hf : ∀ value, ends value → Finds system store ends' (f value)) :
    Finds system store ends' (job >>= f) :=
  Safe.bind h fun value _ hfound hvalue => hfound ▸ hf value hvalue

/-- After a job that only finds something out, the store is still the same. -/
theorem Finds.safe_bind {found : α → Prop} {job : Job α} {f : α → Job β} (h : Finds system store found job)
    (halways : always store) (hfails : ∀ fault, fails fault store)
    (hf : ∀ value, found value → Safe system always ends' fails store (f value)) :
    Safe system always ends' fails store (job >>= f) := by
  have hjob : Safe system always (fun value store' => store' = store ∧ found value) fails store job := by
    refine Script.Safe.mono (Script.Safe.and_always h) (fun _ hstore => hstore ▸ halways) ?_
    rintro (fault | value) store' ⟨rfl, hresult⟩
    · exact hfails fault
    · exact ⟨rfl, hresult⟩
  refine hjob.bind fun value store' _ hvalue => ?_
  obtain ⟨rfl, hvalue⟩ := hvalue
  exact hf value hvalue

theorem Keeps.finds {faults : Fault → Prop} {job : Job α} (h : Keeps (·.isReading) faults job) :
    Finds system store (fun _ => True) job := by
  have hasks : ∀ request : Request, request.isReading → ∀ found, found = store →
      ∀ answer found', found.Answers system request answer found' → found' = store := by
    rintro request hreading found rfl answer found' hanswer
    exact hanswer.eq_of_isReading hreading
  refine Script.Safe.mono (Script.Keeps.safe h hasks rfl) (fun _ hfound => hfound) ?_
  rintro (fault | value) found -
  · trivial
  · trivial

end Job

end Switchboard.Disk
