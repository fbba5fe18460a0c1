import Switchboard.Dispatcher
import Switchboard.Proofs.Plan.Lookup

/-!
The laws of one dispatcher. Handlers are kept by position and asked for by identifier; what connects
the two is the plan, whose search ends at the position of the slot with the identifier (`Locates`).
So a dispatcher behaves like a map: an update is seen under its own identifier and nowhere else, the
list of slots pairs each of them with what a lookup of its identifier returns, and a dump is made of
the states of that list.
-/

namespace Switchboard

namespace Sink

@[simp] theorem writeAll_nil (sink : Sink) : sink.writeAll [] = (true, sink) := rfl

theorem writeAll_cons (piece : String) (rest : List String) (sink : Sink) :
    sink.writeAll (piece :: rest) =
      match sink.write piece with
      | (true, sink) => sink.writeAll rest
      | (false, sink) => (false, sink) := by
  rw [writeAll, writeAllRecorded]
  rcases sink.write piece with ⟨_ | _, _⟩ <;> rfl

/-- What stands behind some pieces is offered if all of these are taken. -/
theorem writeAllRecorded_append (before behind : List String) (sink : Sink) :
    sink.writeAllRecorded (before ++ behind) =
      match sink.writeAllRecorded before with
      | (offered, true, sink) =>
        (offered ++ (sink.writeAllRecorded behind).1, (sink.writeAllRecorded behind).2)
      | (offered, false, sink) => (offered, false, sink) := by
  induction before generalizing sink with
  | nil => rfl
  | cons piece rest ih =>
      rw [List.cons_append, writeAllRecorded, writeAllRecorded]
      rcases sink.write piece with ⟨_ | _, next⟩
      · rfl
      · simp only [ih]
        rcases next.writeAllRecorded rest with ⟨offered, _ | _, last⟩ <;> rfl

theorem writeAll_append (before behind : List String) (sink : Sink) :
    sink.writeAll (before ++ behind) =
      match sink.writeAll before with
      | (true, sink) => sink.writeAll behind
      | (false, sink) => (false, sink) := by
  simp only [writeAll, writeAllRecorded_append]
  rcases sink.writeAllRecorded before with ⟨offered, _ | _, last⟩ <;> rfl

/-- A sink without a limit takes everything. -/
theorem writeAll_of_room_eq_none {sink : Sink} (h : sink.room = none) (pieces : List String) :
    sink.writeAll pieces = (true, { sink with pieces := sink.pieces ++ pieces.toArray }) := by
  induction pieces generalizing sink with
  | nil => simp
  | cons piece rest ih =>
      have hwrite : sink.write piece = (true, { sink with pieces := sink.pieces.push piece }) := by
        rw [write, h]
      rw [writeAll_cons, hwrite]
      show writeAll rest { sink with pieces := sink.pieces.push piece } = _
      rw [ih]
      · simp
      · exact h

end Sink

namespace Dispatcher

variable {H : Type} {dispatcher : Dispatcher H}

/-- The plan of the dispatcher finds every slot where it stands. -/
def Faithful (dispatcher : Dispatcher H) : Prop :=
  Locates dispatcher.plan.slots dispatcher.plan.find?

theorem faithful_ofPlan {strategy : Strategy} {mapping : Mapping} {config : Config} {plan : Plan}
    (h : Plan.ofMapping strategy mapping config = .ok plan) (make : Slot → H) :
    Faithful (ofPlan plan make) :=
  Plan.locates h

/-- A new dispatcher holds what was made for the slot that the plan finds. -/
theorem lookup_ofPlan (plan : Plan) (make : Slot → H) (x : Identifier) :
    (ofPlan plan make).lookup x = (plan.lookup x).map make := by
  rw [lookup, Plan.lookup, Option.map_bind]
  simp only [ofPlan, Array.getElem?_map]
  rfl

@[simp] theorem plan_update (x : Identifier) (f : H → H) :
    (dispatcher.update x f).plan = dispatcher.plan := by
  unfold update
  split <;> rfl

theorem Faithful.update (h : Faithful dispatcher) (x : Identifier) (f : H → H) :
    Faithful (dispatcher.update x f) := by
  unfold Faithful
  rw [plan_update]
  exact h

/-! ### Lookups and updates -/

/-- A lookup returns the handler at the position of the slot. -/
theorem Faithful.lookup_of_slot (h : Faithful dispatcher) {i : Nat} {slot : Slot}
    (hslot : dispatcher.plan.slots[i]? = some slot) :
    dispatcher.lookup slot.identifier = dispatcher.handlers[i]? := by
  rw [lookup, (h slot.identifier i).2 ⟨slot, hslot, rfl⟩, Option.bind_some]

theorem Faithful.find?_of_lookup_eq_none (h : Faithful dispatcher) {x : Identifier}
    (hx : dispatcher.lookup x = none) : dispatcher.plan.find? x = none := by
  cases hfind : dispatcher.plan.find? x with
  | none => rfl
  | some i =>
      obtain ⟨slot, hslot, rfl⟩ := (h x i).1 hfind
      rw [h.lookup_of_slot hslot, Array.getElem?_eq_none_iff, dispatcher.size_handlers] at hx
      have hi := (Array.getElem?_eq_some_iff.1 hslot).1
      omega

/-- An update of an identifier without a handler changes nothing. -/
theorem Faithful.update_of_lookup_eq_none (h : Faithful dispatcher) {x : Identifier}
    (hx : dispatcher.lookup x = none) (f : H → H) : dispatcher.update x f = dispatcher := by
  rw [Dispatcher.update, h.find?_of_lookup_eq_none hx]

/-- An update is seen under its own identifier, and under no other one. -/
theorem Faithful.lookup_update (h : Faithful dispatcher) (x : Identifier) (f : H → H)
    (y : Identifier) :
    (dispatcher.update x f).lookup y =
      if y = x then (dispatcher.lookup y).map f else dispatcher.lookup y := by
  cases hx : dispatcher.plan.find? x with
  | none =>
      have hsame : dispatcher.update x f = dispatcher := by
        rw [Dispatcher.update, hx]
      rw [hsame]
      split
      · next heq =>
        rw [heq, lookup, hx]
        rfl
      · rfl
  | some i =>
      have hhandlers : (dispatcher.update x f).handlers = dispatcher.handlers.modify i f := by
        rw [Dispatcher.update, hx]
      rw [lookup, lookup, plan_update, hhandlers]
      split
      · next heq =>
        rw [heq, hx]
        simp [Array.getElem?_modify]
      · next hne =>
        cases hy : dispatcher.plan.find? y with
        | none => rfl
        | some j =>
            -- Two identifiers never share a position.
            have hij : i ≠ j := by
              rintro rfl
              obtain ⟨slot, hslot, rfl⟩ := (h x i).1 hx
              obtain ⟨slot', hslot', rfl⟩ := (h y i).1 hy
              rw [hslot, Option.some.injEq] at hslot'
              exact hne (by rw [hslot'])
            simp [Array.getElem?_modify, hij]

/-! ### Lists and dumps -/

theorem map_fst_toList (dispatcher : Dispatcher H) :
    dispatcher.toList.map (·.1) = dispatcher.plan.slots.toList := by
  have hsize := dispatcher.size_handlers
  apply List.map_fst_zip
  rw [Array.length_toList, Array.length_toList]
  omega

theorem map_snd_toList (dispatcher : Dispatcher H) :
    dispatcher.toList.map (·.2) = dispatcher.handlers.toList := by
  have hsize := dispatcher.size_handlers
  apply List.map_snd_zip
  rw [Array.length_toList, Array.length_toList]
  omega

/-- Every slot is listed with its own handler. -/
theorem Faithful.lookup_of_mem_toList (h : Faithful dispatcher) {slot : Slot} {handler : H}
    (hmem : (slot, handler) ∈ dispatcher.toList) :
    dispatcher.lookup slot.identifier = some handler := by
  obtain ⟨i, hi⟩ := List.getElem?_of_mem hmem
  rw [toList, List.getElem?_zip_eq_some, Array.getElem?_toList, Array.getElem?_toList] at hi
  rw [h.lookup_of_slot hi.1, hi.2]

/-- The slots that have a handler, each with its own. -/
def listed (handlers : Identifier → Option H) (slots : List Slot) : List (Slot × H) :=
  slots.filterMap fun slot => (handlers slot.identifier).map (slot, ·)

theorem eq_listed {handlers : Identifier → Option H} {pairs : List (Slot × H)}
    (h : ∀ slot handler, (slot, handler) ∈ pairs → handlers slot.identifier = some handler) :
    pairs = listed handlers (pairs.map (·.1)) := by
  induction pairs with
  | nil => rfl
  | cons pair rest ih =>
      obtain ⟨slot, handler⟩ := pair
      have hrest := ih fun s k hmem => h s k (List.mem_cons_of_mem _ hmem)
      have hslot := h slot handler List.mem_cons_self
      rw [List.map_cons, listed, List.filterMap_cons, hslot]
      exact congrArg _ hrest

/-- The list is settled by the slots and by what lookups return. -/
theorem Faithful.toList_eq_listed (h : Faithful dispatcher) :
    dispatcher.toList = listed dispatcher.lookup dispatcher.plan.slots.toList := by
  have hlist := eq_listed fun _ _ => h.lookup_of_mem_toList
  rwa [map_fst_toList] at hlist

variable [Handler H]

/-- What the dump of one handler is made of. -/
def pieces (handler : H) : List String :=
  Handler.state handler ++ ["\n"]

/-- All writes for a handler form one list of pieces. -/
theorem writeHandlersRecorded_cons (handler : H) (rest : List H) (sink : Sink) :
    writeHandlersRecorded (handler :: rest) sink =
      match sink.writeAllRecorded (pieces handler) with
      | (offered, false, sink) => (.ask handler :: offered.map .offer, false, sink)
      | (offered, true, sink) =>
        (.ask handler :: (offered.map .offer ++ (writeHandlersRecorded rest sink).1),
          (writeHandlersRecorded rest sink).2) := by
  rw [writeHandlersRecorded, pieces, Sink.writeAllRecorded_append]
  rcases sink.writeAllRecorded (Handler.state handler) with ⟨offered, _ | _, next⟩
  · rfl
  · simp only [Sink.writeAllRecorded]
    rcases next.write "\n" with ⟨_ | _, last⟩ <;> rfl

/-- A dump writes the pieces of all handlers. -/
theorem writeHandlersRecorded_snd (handlers : List H) (sink : Sink) :
    (writeHandlersRecorded handlers sink).2 = sink.writeAll (handlers.flatMap pieces) := by
  induction handlers generalizing sink with
  | nil => rfl
  | cons handler rest ih =>
      rw [writeHandlersRecorded_cons, List.flatMap_cons, Sink.writeAll_append, Sink.writeAll]
      rcases sink.writeAllRecorded (pieces handler) with ⟨offered, _ | _, next⟩
      · rfl
      · exact ih next

/-- A dump is made of the states of the listed handlers, each of which a line feed follows. -/
theorem writeState_eq_writeAll (dispatcher : Dispatcher H) (sink : Sink) :
    dispatcher.writeState sink = sink.writeAll (dispatcher.toList.flatMap (pieces ·.2)) := by
  rw [writeState, writeHandlersRecorded_snd, ← map_snd_toList, List.flatMap_map]

end Dispatcher

end Switchboard
