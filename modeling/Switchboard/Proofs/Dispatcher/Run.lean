import Switchboard.Proofs.Dispatcher.Handlers

/-!
Runs of a dispatcher. A run is a list of steps in any order: updates and lookups of identifiers, lists
and dumps. Each step has a reply. The same steps can be taken by a map from identifiers to handlers
that knows nothing of positions or layouts; only the order of the slots tells it in which order to
list. A dispatcher simulates that map: one step keeps both in agreement and gets the same reply
(`step_eq`), and so does a run (`run_eq`).

On the map it is easy to see what a run leaves behind. The handler of an identifier has taken the
updates of that identifier, in order, and no others.
-/

namespace Switchboard

/-- What is asked of a dispatcher. -/
inductive Step (H : Type)
  | update (x : Identifier) (f : H → H)
  | lookup (x : Identifier)
  | list
  | dump (sink : Sink)

/-- What is replied to a step. An update replies with the handler it finds, before the change. -/
inductive Reply (H : Type)
  | found (handler? : Option H)
  | listed (slots : List (Slot × H))
  | dumped (outcome : Bool × Sink)

/-- The answer to a lookup or to an update. -/
def Reply.found? {H : Type} : Reply H → Option (Option H)
  | .found handler? => some handler?
  | .listed _ | .dumped _ => none

variable {H : Type}

namespace Step

/-- The updates of an identifier, in order. -/
def updatesOf (x : Identifier) : List (Step H) → List (H → H)
  | [] => []
  | .update y f :: rest => if y = x then f :: updatesOf x rest else updatesOf x rest
  | _ :: rest => updatesOf x rest

/-- Takes some updates one after the other. -/
def applyAll (updates : List (H → H)) (handler : H) : H :=
  updates.foldl (fun handler f => f handler) handler

end Step

namespace Dispatcher

variable [Handler H]

def step (dispatcher : Dispatcher H) : Step H → Dispatcher H × Reply H
  | .update x f => (dispatcher.update x f, .found (dispatcher.lookup x))
  | .lookup x => (dispatcher, .found (dispatcher.lookup x))
  | .list => (dispatcher, .listed dispatcher.toList)
  | .dump sink => (dispatcher, .dumped (dispatcher.writeState sink))

/-- Takes some steps and collects the replies. -/
def run (dispatcher : Dispatcher H) : List (Step H) → Dispatcher H × List (Reply H)
  | [] => (dispatcher, [])
  | first :: rest =>
    let next := dispatcher.step first
    let last := next.1.run rest
    (last.1, next.2 :: last.2)

end Dispatcher

/-! ### The map -/

/-- A map from identifiers to handlers. -/
abbrev HandlerMap (H : Type) := Identifier → Option H

namespace HandlerMap

def update (handlers : HandlerMap H) (x : Identifier) (f : H → H) : HandlerMap H :=
  fun y => if y = x then (handlers y).map f else handlers y

theorem update_apply (handlers : HandlerMap H) (x : Identifier) (f : H → H) (y : Identifier) :
    handlers.update x f y = if y = x then (handlers y).map f else handlers y :=
  rfl

variable [Handler H]

/-- A step of the map, which lists some slots in the given order. -/
def step (order : List Slot) (handlers : HandlerMap H) : Step H → HandlerMap H × Reply H
  | .update x f => (handlers.update x f, .found (handlers x))
  | .lookup x => (handlers, .found (handlers x))
  | .list => (handlers, .listed (Dispatcher.listed handlers order))
  | .dump sink =>
    (handlers, .dumped (sink.writeAll
      ((Dispatcher.listed handlers order).flatMap (Dispatcher.pieces ·.2))))

def run (order : List Slot) (handlers : HandlerMap H) :
    List (Step H) → HandlerMap H × List (Reply H)
  | [] => (handlers, [])
  | first :: rest =>
    let next := handlers.step order first
    let last := run order next.1 rest
    (last.1, next.2 :: last.2)

/-- A run leaves every handler with its own updates. -/
theorem run_apply (order : List Slot) (handlers : HandlerMap H) (steps : List (Step H))
    (x : Identifier) :
    (handlers.run order steps).1 x = (handlers x).map (Step.applyAll (Step.updatesOf x steps)) := by
  induction steps generalizing handlers with
  | nil =>
      show handlers x = (handlers x).map fun handler => handler
      rw [Option.map_id_fun']
      rfl
  | cons first rest ih =>
      -- The rest is run on the map that the first step leaves, and only an update leaves another.
      show ((handlers.step order first).1.run order rest).1 x = _
      rw [ih]
      cases first with
      | update y f =>
          rw [Step.updatesOf]
          by_cases h : y = x
          · show Option.map _ (handlers.update y f x) = _
            rw [if_pos h, update_apply, if_pos h.symm, Option.map_map]
            rfl
          · show Option.map _ (handlers.update y f x) = _
            rw [if_neg h, update_apply, if_neg (Ne.symm h)]
      | lookup y => rfl
      | list => rfl
      | dump sink => rfl

/-- What lookups and updates are answered does not depend on the order of the slots. -/
theorem run_found? (order order' : List Slot) (handlers : HandlerMap H) (steps : List (Step H)) :
    (handlers.run order' steps).2.map Reply.found? =
      (handlers.run order steps).2.map Reply.found? := by
  induction steps generalizing handlers with
  | nil => rfl
  | cons first rest ih =>
      have hstep : (handlers.step order' first).1 = (handlers.step order first).1 ∧
          (handlers.step order' first).2.found? = (handlers.step order first).2.found? := by
        cases first <;> exact ⟨rfl, rfl⟩
      rw [run, run, List.map_cons, List.map_cons, hstep.1, hstep.2]
      exact congrArg _ (ih _)

end HandlerMap

/-! ### The simulation -/

namespace Dispatcher

variable [Handler H] {dispatcher : Dispatcher H}

/-- A dispatcher takes every step as its map does, and goes on being faithful to its plan. -/
theorem step_eq (h : Faithful dispatcher) (first : Step H) :
    Faithful (dispatcher.step first).1 ∧
      (dispatcher.step first).1.plan = dispatcher.plan ∧
      ((dispatcher.step first).1.lookup, (dispatcher.step first).2) =
        HandlerMap.step dispatcher.plan.slots.toList dispatcher.lookup first := by
  cases first with
  | update x f =>
      refine ⟨h.update x f, plan_update x f, ?_⟩
      rw [step, HandlerMap.step, Prod.mk.injEq]
      refine ⟨?_, rfl⟩
      ext y : 1
      exact h.lookup_update x f y
  | lookup x => exact ⟨h, rfl, rfl⟩
  | list =>
      refine ⟨h, rfl, ?_⟩
      rw [step, HandlerMap.step, h.toList_eq_listed]
  | dump sink =>
      refine ⟨h, rfl, ?_⟩
      rw [step, HandlerMap.step, writeState_eq_writeAll, h.toList_eq_listed]

theorem run_eq (h : Faithful dispatcher) (steps : List (Step H)) :
    Faithful (dispatcher.run steps).1 ∧
      (dispatcher.run steps).1.plan = dispatcher.plan ∧
      ((dispatcher.run steps).1.lookup, (dispatcher.run steps).2) =
        HandlerMap.run dispatcher.plan.slots.toList dispatcher.lookup steps := by
  induction steps generalizing dispatcher with
  | nil => exact ⟨h, rfl, rfl⟩
  | cons first rest ih =>
      obtain ⟨hnext, hplan, hstep⟩ := step_eq h first
      obtain ⟨hlast, hplan', hrest⟩ := ih hnext
      refine ⟨hlast, hplan'.trans hplan, ?_⟩
      rw [hplan] at hrest
      rw [HandlerMap.run, ← hstep, ← hrest]
      rfl

/-! ### Runs over a mapping -/

/-- The lines of a dump. -/
def lines (dispatcher : Dispatcher H) : List String :=
  dispatcher.toList.map fun pair => String.join (Handler.state pair.2) ++ "\n"

theorem join_flatMap_pieces (pairs : List (Slot × H)) :
    String.join (pairs.flatMap (pieces ·.2)) =
      String.join (pairs.map fun pair => String.join (Handler.state pair.2) ++ "\n") := by
  induction pairs with
  | nil => rfl
  | cons pair rest ih =>
      rw [List.flatMap_cons, List.map_cons, String.join_append, String.join_cons, ih, pieces,
        String.join_append]
      simp

/-- A sink without a limit takes the whole dump, line after line. -/
theorem writeState_of_room_eq_none (dispatcher : Dispatcher H) {sink : Sink}
    (h : sink.room = none) :
    (dispatcher.writeState sink).1 = true ∧
      (dispatcher.writeState sink).2.text = sink.text ++ String.join dispatcher.lines := by
  rw [writeState_eq_writeAll, Sink.writeAll_of_room_eq_none h]
  refine ⟨rfl, ?_⟩
  rw [lines, ← join_flatMap_pieces]
  simp [Sink.text]

section Mapping

variable {strategy strategy' : Strategy} {mapping : Mapping} {config config' : Config}
  {plan plan' : Plan} {make : Slot → H} {steps : List (Step H)} {last last' : Dispatcher H}
  {replies replies' : List (Reply H)}

/-- The run of a dispatcher over a mapping is the run of the map that holds what was made for the
slots. -/
theorem run_ofMapping (hplan : Plan.ofMapping strategy mapping config = .ok plan)
    (hrun : (ofPlan plan make).run steps = (last, replies)) :
    Faithful last ∧ last.plan = plan ∧
      (last.lookup, replies) =
        HandlerMap.run (Plan.orderedSlots strategy mapping)
          (fun x => (plan.lookup x).map make) steps := by
  have horder : plan.slots.toList = Plan.orderedSlots strategy mapping := by
    rw [Plan.slots_ofMapping hplan]
  have hinitial : (ofPlan plan make).lookup = fun x => (plan.lookup x).map make := by
    ext x : 1
    exact lookup_ofPlan plan make x
  have heq := run_eq (faithful_ofPlan hplan make) steps
  rw [hrun, hinitial] at heq
  rw [← horder]
  exact heq

/-- What a run leaves under an identifier is what was made for the slot that the plan finds, with the
updates of that identifier. -/
theorem lookup_run (hplan : Plan.ofMapping strategy mapping config = .ok plan)
    (hrun : (ofPlan plan make).run steps = (last, replies)) (x : Identifier) :
    last.lookup x =
      (plan.lookup x).map fun slot => Step.applyAll (Step.updatesOf x steps) (make slot) := by
  obtain ⟨-, -, heq⟩ := run_ofMapping hplan hrun
  have hlast : last.lookup = _ := congrArg Prod.fst heq
  rw [hlast, HandlerMap.run_apply, Option.map_map]
  rfl

/-- Lookups and updates are answered alike under all strategies. -/
theorem run_found?_of_mapping (hplan : Plan.ofMapping strategy mapping config = .ok plan)
    (hplan' : Plan.ofMapping strategy' mapping config' = .ok plan')
    (hrun : (ofPlan plan make).run steps = (last, replies))
    (hrun' : (ofPlan plan' make).run steps = (last', replies')) :
    replies'.map Reply.found? = replies.map Reply.found? ∧ last'.lookup = last.lookup := by
  have hlookup := Plan.lookup_eq_of_mapping hplan hplan'
  constructor
  · have heq := (run_ofMapping hplan hrun).2.2
    have heq' := (run_ofMapping hplan' hrun').2.2
    simp only [hlookup] at heq'
    rw [show replies = _ from congrArg Prod.snd heq, show replies' = _ from congrArg Prod.snd heq']
    exact HandlerMap.run_found? _ _ _ steps
  · ext x : 1
    rw [lookup_run hplan hrun, lookup_run hplan' hrun', hlookup]

/-- The list at the end of a run follows the order in which the strategy declares the slots. -/
theorem toList_run (hplan : Plan.ofMapping strategy mapping config = .ok plan)
    (hrun : (ofPlan plan make).run steps = (last, replies)) :
    last.toList = listed last.lookup (Plan.orderedSlots strategy mapping) := by
  obtain ⟨hfaithful, rfl, -⟩ := run_ofMapping hplan hrun
  rw [hfaithful.toList_eq_listed, Plan.slots_ofMapping hplan]

/-- Where two strategies declare the slots in one order, nothing tells their dispatchers apart. -/
theorem run_eq_of_orderedSlots_eq (hplan : Plan.ofMapping strategy mapping config = .ok plan)
    (hplan' : Plan.ofMapping strategy' mapping config' = .ok plan')
    (hrun : (ofPlan plan make).run steps = (last, replies))
    (hrun' : (ofPlan plan' make).run steps = (last', replies'))
    (horder : Plan.orderedSlots strategy' mapping = Plan.orderedSlots strategy mapping) :
    replies' = replies ∧ last'.toList = last.toList := by
  have hlookup := Plan.lookup_eq_of_mapping hplan hplan'
  have heq := (run_ofMapping hplan hrun).2.2
  have heq' := (run_ofMapping hplan' hrun').2.2
  simp only [hlookup, horder] at heq'
  have hsame := heq'.trans heq.symm
  rw [Prod.mk.injEq] at hsame
  refine ⟨hsame.2, ?_⟩
  rw [toList_run hplan hrun, toList_run hplan' hrun', horder, hsame.1]

/-- A table lists the same slots with the same handlers, by ascending identifiers. -/
theorem toList_run_array (hplan : Plan.ofMapping strategy mapping config = .ok plan)
    (hplan' : Plan.ofMapping .array mapping config' = .ok plan')
    (hrun : (ofPlan plan make).run steps = (last, replies))
    (hrun' : (ofPlan plan' make).run steps = (last', replies')) :
    last'.toList.Perm last.toList ∧
      last'.toList.Pairwise fun pair pair' => pair.1.identifier < pair'.1.identifier := by
  constructor
  · rw [toList_run hplan hrun, toList_run hplan' hrun',
      (run_found?_of_mapping hplan hplan' hrun hrun').2]
    apply List.Perm.filterMap
    exact (Plan.orderedSlots_perm .array mapping).trans (Plan.orderedSlots_perm strategy mapping).symm
  · obtain ⟨-, rfl, -⟩ := run_ofMapping hplan' hrun'
    have hsorted := TablePlan.pairwise_lt_sortedSlots mapping
    have hslots := map_fst_toList last'
    rw [Plan.slots_ofMapping hplan', List.toList_toArray] at hslots
    rw [show TablePlan.sortedSlots mapping = _ from hslots.symm, List.pairwise_map] at hsorted
    exact hsorted

/-- The dispatcher contract: whatever steps a dispatcher takes, it behaves like a map from the
identifiers of the entries to their handlers. A lookup finds nothing exactly where no entry has the
identifier; otherwise it finds what was made for the slot of the entry, changed by the updates of that
identifier in their order. Every reply on the way is the reply of the map. An update without a handler
changes nothing, and any other update changes one handler only. A list pairs every slot with its own
handler, and a dump is the state of each of them with a line feed behind it, in the same order.

So the layout cannot be told from the answers to lookups. A switch and a chain cannot be told apart at
all, and a table dumps the same lines by ascending identifiers. -/
theorem run_refines_entries {name : String} {entries : List Entry}
    (hmapping : Mapping.ofEntries name entries = .ok mapping)
    (hplan : Plan.ofMapping strategy mapping config = .ok plan)
    (hrun : (ofPlan plan make).run steps = (last, replies)) :
    (∀ x, last.lookup x = none ↔ ∀ e ∈ entries, e.identifier ≠ x) ∧
      (∀ e ∈ entries, last.lookup e.identifier =
        some (Step.applyAll (Step.updatesOf e.identifier steps) (make (Slot.ofEntry e)))) ∧
      (last.lookup, replies) =
        HandlerMap.run plan.slots.toList (fun x => (plan.lookup x).map make) steps ∧
      (∀ x f, last.lookup x = none → last.update x f = last) ∧
      (∀ x f y, y ≠ x → (last.update x f).lookup y = last.lookup y) ∧
      last.toList.map (·.1) = plan.slots.toList ∧
      (∀ pair ∈ last.toList, last.lookup pair.1.identifier = some pair.2) ∧
      (∀ sink, sink.room = none → (last.writeState sink).1 = true ∧
        (last.writeState sink).2.text = sink.text ++ String.join last.lines) ∧
      ∀ strategy' config' plan' last' replies',
        Plan.ofMapping strategy' mapping config' = .ok plan' →
        (ofPlan plan' make).run steps = (last', replies') →
        replies'.map Reply.found? = replies.map Reply.found? ∧ last'.lookup = last.lookup ∧
          (strategy ≠ .array → strategy' ≠ .array →
            replies' = replies ∧ ∀ sink, last'.writeState sink = last.writeState sink) ∧
          (strategy' = .array → last'.lines.Perm last.lines ∧ last'.toList.Perm last.toList ∧
            last'.toList.Pairwise fun pair pair' =>
              pair.1.identifier < pair'.1.identifier) := by
  obtain ⟨-, rfl⟩ := Mapping.ofEntries_eq_ok hmapping
  obtain ⟨hfaithful, hlastPlan, hmap⟩ := run_ofMapping hplan hrun
  have hlookup := lookup_run hplan hrun
  refine ⟨?_, ?_, ?_, fun x f hx => hfaithful.update_of_lookup_eq_none hx f, ?_, ?_, ?_,
    fun sink hsink => writeState_of_room_eq_none last hsink, ?_⟩
  · intro x
    rw [hlookup, Option.map_eq_none_iff, Plan.lookup_eq_none_iff hplan]
    simp [Mapping.mem_slots]
  · intro e he
    have hslot := (Plan.lookup_eq_some_iff hplan).2 ⟨Mapping.mem_slots.2 ⟨e, he, rfl⟩, rfl⟩
    rw [Slot.ofEntry_identifier] at hslot
    rw [hlookup, hslot, Option.map_some]
  · rw [hmap, Plan.slots_ofMapping hplan]
  · intro x f y hne
    rw [hfaithful.lookup_update, if_neg hne]
  · rw [map_fst_toList, hlastPlan]
  · exact fun pair hpair => hfaithful.lookup_of_mem_toList hpair
  · intro strategy' config' plan' last' replies' hplan' hrun'
    obtain ⟨hfound, hsame⟩ := run_found?_of_mapping hplan hplan' hrun hrun'
    refine ⟨hfound, hsame, ?_, ?_⟩
    · intro hstrategy hstrategy'
      have horder : Plan.orderedSlots strategy' mapping = Plan.orderedSlots strategy mapping := by
        cases strategy <;> cases strategy' <;> first | rfl | contradiction
      obtain ⟨hreplies, hlist⟩ := run_eq_of_orderedSlots_eq hplan hplan' hrun hrun' horder
      refine ⟨hreplies, fun sink => ?_⟩
      rw [writeState_eq_writeAll, writeState_eq_writeAll, hlist]
    · rintro rfl
      obtain ⟨hperm, hsorted⟩ := toList_run_array hplan hplan' hrun hrun'
      exact ⟨hperm.map _, hperm, hsorted⟩

end Mapping

end Dispatcher

/-- Counts what is routed to it. -/
structure Counter where
  name : String
  count : Nat
deriving DecidableEq, Repr

namespace Counter

instance : Handler Counter where
  state counter := [counter.name, " packets=", toString counter.count]

def ofSlot (slot : Slot) : Counter where
  name := slot.name.text
  count := 0

def bump (counter : Counter) : Counter :=
  { counter with count := counter.count + 1 }

/-- Two of four packets are counted for one protocol, and one is not counted at all. -/
theorem run_refines_ipProtocols :
    ∃ plan last replies,
      Mapping.ofEntries "ip" Mapping.ipProtocols.entries = .ok Mapping.ipProtocols ∧
      Plan.ofMapping .array Mapping.ipProtocols {} = .ok plan ∧
      (Dispatcher.ofPlan plan ofSlot).run
          [.update 6 bump, .update 0x11 bump, .update 2 bump, .update 6 bump] = (last, replies) ∧
      last.lookup 6 = some ⟨"tcpanalyzer6", 2⟩ ∧ last.lookup 0x11 = some ⟨"udpanalyzer11", 1⟩ ∧
      last.lookup 1 = some ⟨"icmpanalyzer1", 0⟩ ∧ last.lookup 2 = none := by
  have hmapping := Mapping.ofEntries_self Mapping.ipProtocols
  obtain ⟨plan, hplan⟩ := Plan.ofMapping_ipProtocols
  obtain ⟨last, replies, hrun⟩ : ∃ last replies, (Dispatcher.ofPlan plan ofSlot).run
      [.update 6 bump, .update 0x11 bump, .update 2 bump, .update 6 bump] = (last, replies) :=
    ⟨_, _, rfl⟩
  obtain ⟨hnone, hsome, -⟩ := Dispatcher.run_refines_entries hmapping hplan hrun
  refine ⟨plan, last, replies, hmapping, hplan, hrun, ?_, ?_, ?_, ?_⟩
  · exact hsome ⟨6, "TCPAnalyzer", 2⟩ (by decide)
  · exact hsome ⟨0x11, "UDPAnalyzer", 3⟩ (by decide)
  · exact hsome ⟨1, "ICMPAnalyzer", 4⟩ (by decide)
  · exact (hnone 2).2 (by decide)

end Counter

end Switchboard
