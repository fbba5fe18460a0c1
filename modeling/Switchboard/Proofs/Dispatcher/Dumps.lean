import Switchboard.Proofs.Dispatcher.Run

/-!
Dumps into a sink with limited room. All writes of a dump form one list, the pieces of the first handler
and a line feed, the pieces of the second and a line feed, and so on. A sink takes as many of them as it
has room for and refuses the next one, wherever that falls: among the pieces of a handler, on the line
feed behind them, or nowhere.

What a dump does with the sink is told by its result. What it does not do any more after a refusal is
told by the record of its acts: the last act is the refused offer, so nothing is written after it and no
handler behind the one at work is asked for its state.
-/

namespace Switchboard

namespace Sink

variable {sink : Sink} {room : Nat}

theorem write_of_room_zero (h : sink.room = some 0) (piece : String) :
    sink.write piece = (false, { sink with refused := sink.refused + 1 }) := by
  rw [write, h]

theorem write_of_room_succ (h : sink.room = some (room + 1)) (piece : String) :
    sink.write piece = (true, { sink with pieces := sink.pieces.push piece, room := some room }) := by
  rw [write, h]

/-- The first refusal comes when the room is used up, and nothing is taken or refused after it. -/
theorem writeAll_of_room (h : sink.room = some room) (pieces : List String) :
    sink.writeAll pieces = (decide (pieces.length ≤ room),
      { pieces := sink.pieces ++ (pieces.take room).toArray
        room := some (room - pieces.length)
        refused := sink.refused + if pieces.length ≤ room then 0 else 1 }) := by
  induction pieces generalizing sink room with
  | nil => simp [← h]
  | cons piece rest ih =>
      cases room with
      | zero =>
          rw [writeAll_cons, write_of_room_zero h]
          simp [h]
      | succ room =>
          rw [writeAll_cons, write_of_room_succ h]
          show writeAll rest _ = _
          rw [ih rfl]
          simp

/-- Pieces behind the first refusal make no difference. -/
theorem writeAll_append_of_lt (h : sink.room = some room) {before : List String}
    (hlt : room < before.length) (behind : List String) :
    sink.writeAll (before ++ behind) = sink.writeAll before := by
  rw [writeAll_append, writeAll_of_room h, decide_eq_false (by omega)]

/-- One piece more is offered than there is room for. -/
theorem writeAllRecorded_fst (h : sink.room = some room) (pieces : List String) :
    (sink.writeAllRecorded pieces).1 = pieces.take (room + 1) := by
  induction pieces generalizing sink room with
  | nil => rfl
  | cons piece rest ih =>
      cases room with
      | zero =>
          rw [writeAllRecorded, write_of_room_zero h]
          rfl
      | succ room =>
          rw [writeAllRecorded, write_of_room_succ h]
          show piece :: (writeAllRecorded rest _).1 = _
          rw [ih rfl]
          rfl

theorem writeAllRecorded_of_room (h : sink.room = some room) (pieces : List String) :
    sink.writeAllRecorded pieces = (pieces.take (room + 1), decide (pieces.length ≤ room),
      { pieces := sink.pieces ++ (pieces.take room).toArray
        room := some (room - pieces.length)
        refused := sink.refused + if pieces.length ≤ room then 0 else 1 }) := by
  rw [← writeAll_of_room h, writeAll, ← writeAllRecorded_fst h]

end Sink

/-! ### Records -/

namespace Dispatcher

variable {H : Type} [Handler H]

/-- The acts of a full dump. -/
def acts (handlers : List H) : List (Act H) :=
  handlers.flatMap fun handler => .ask handler :: (pieces handler).map .offer

/-- The writes of a full dump. -/
def writesOf (handlers : List H) : List String :=
  handlers.flatMap pieces

variable {handlers before : List H} {sink : Sink} {room : Nat}

@[simp] theorem writesOf_cons (handler : H) (rest : List H) :
    writesOf (handler :: rest) = pieces handler ++ writesOf rest := rfl

@[simp] theorem writesOf_append (handlers later : List H) :
    writesOf (handlers ++ later) = writesOf handlers ++ writesOf later :=
  List.flatMap_append

@[simp] theorem acts_cons (handler : H) (rest : List H) :
    acts (handler :: rest) = .ask handler :: ((pieces handler).map .offer ++ acts rest) := rfl

/-- A handler is dumped to the end if there is room for its writes. -/
theorem writeHandlersRecorded_cons_of_le (h : sink.room = some room) {handler : H}
    (hfits : (pieces handler).length ≤ room) (rest : List H) :
    ∃ sink', sink'.room = some (room - (pieces handler).length) ∧
      (writeHandlersRecorded (handler :: rest) sink).1 =
        .ask handler :: ((pieces handler).map .offer ++ (writeHandlersRecorded rest sink').1) := by
  have htake : (pieces handler).take (room + 1) = pieces handler :=
    List.take_of_length_le (by omega)
  rw [writeHandlersRecorded_cons, Sink.writeAllRecorded_of_room h, decide_eq_true hfits, htake]
  exact ⟨_, rfl, rfl⟩

/-- Otherwise the dump ends with the offer that is refused. -/
theorem writeHandlersRecorded_cons_of_lt (h : sink.room = some room) {handler : H}
    (hlt : room < (pieces handler).length) (rest : List H) :
    (writeHandlersRecorded (handler :: rest) sink).1 =
      .ask handler :: ((pieces handler).take (room + 1)).map .offer := by
  rw [writeHandlersRecorded_cons, Sink.writeAllRecorded_of_room h, decide_eq_false (by omega)]

/-- Handlers are dumped to the end if there is room for the writes of all of them, and the dump goes on
with the room that they leave. -/
theorem writeHandlersRecorded_append_of_le (h : sink.room = some room)
    (hfits : (writesOf before).length ≤ room) (rest : List H) :
    ∃ sink', sink'.room = some (room - (writesOf before).length) ∧
      (writeHandlersRecorded (before ++ rest) sink).1 =
        acts before ++ (writeHandlersRecorded rest sink').1 := by
  induction before generalizing sink room with
  | nil => exact ⟨sink, h, rfl⟩
  | cons handler before ih =>
      rw [writesOf_cons, List.length_append] at hfits
      have hpieces : (pieces handler).length ≤ room := by omega
      obtain ⟨next, hnext, hfirst⟩ := writeHandlersRecorded_cons_of_le h hpieces (before ++ rest)
      obtain ⟨last, hlast, hacts⟩ := ih hnext (by omega)
      refine ⟨last, ?_, ?_⟩
      · rw [hlast, Nat.sub_sub, writesOf_cons, List.length_append]
      · rw [List.cons_append, hfirst, hacts]
        simp

/-- The first write without room is one of a handler, or the line feed behind its pieces. -/
theorem exists_handler_of_lt (h : room < (writesOf handlers).length) :
    ∃ before handler later, handlers = before ++ handler :: later ∧
      (writesOf before).length ≤ room ∧
      room < (writesOf before).length + (pieces handler).length := by
  induction handlers generalizing room with
  | nil => cases h
  | cons handler rest ih =>
      rw [writesOf_cons, List.length_append] at h
      rcases Nat.lt_or_ge room (pieces handler).length with hlt | hge
      · exact ⟨[], handler, rest, rfl, Nat.zero_le _, by simpa [writesOf] using hlt⟩
      · have hrest : room - (pieces handler).length < (writesOf rest).length := by omega
        obtain ⟨before, next, later, rfl, hbefore, hnext⟩ := ih hrest
        refine ⟨handler :: before, next, later, rfl, ?_, ?_⟩
        · rw [writesOf_cons, List.length_append]
          omega
        · rw [writesOf_cons, List.length_append]
          omega

/-- A dump has the writes of the handlers and one more for each of them. -/
theorem length_writesOf (handlers : List H) :
    (writesOf handlers).length = (handlers.flatMap Handler.state).length + handlers.length := by
  induction handlers with
  | nil => rfl
  | cons handler rest ih =>
      simp only [writesOf_cons, pieces, List.length_append, ih, List.flatMap_cons, List.length_cons,
        List.length_nil]
      omega

/-! ### Dumps -/

variable {dispatcher : Dispatcher H}

theorem writeState_eq_writeAll_writesOf (dispatcher : Dispatcher H) (sink : Sink) :
    dispatcher.writeState sink = sink.writeAll (writesOf dispatcher.handlers.toList) :=
  writeHandlersRecorded_snd _ sink

theorem writeState_of_room (dispatcher : Dispatcher H) (h : sink.room = some room) :
    dispatcher.writeState sink = (decide ((writesOf dispatcher.handlers.toList).length ≤ room),
      { pieces := sink.pieces ++ ((writesOf dispatcher.handlers.toList).take room).toArray
        room := some (room - (writesOf dispatcher.handlers.toList).length)
        refused := sink.refused +
          if (writesOf dispatcher.handlers.toList).length ≤ room then 0 else 1 }) := by
  rw [writeState_eq_writeAll_writesOf, Sink.writeAll_of_room h]

/-- What a sink has taken is the beginning of what a sink without a limit takes. -/
theorem text_writeState_isPrefix (dispatcher : Dispatcher H) (h : sink.room = some room) :
    (dispatcher.writeState sink).2.text.toList <+:
      (dispatcher.writeState { sink with room := none }).2.text.toList := by
  have hsplit := List.take_append_drop room (writesOf dispatcher.handlers.toList)
  have hfull : (dispatcher.writeState { sink with room := none }).2.text =
      (dispatcher.writeState sink).2.text ++
        String.join ((writesOf dispatcher.handlers.toList).drop room) := by
    rw [writeState_of_room dispatcher h, writeState_eq_writeAll_writesOf,
      Sink.writeAll_of_room_eq_none rfl]
    simp only [Sink.text, Array.toList_append]
    rw [← String.join_append, List.append_assoc, hsplit]
  rw [hfull, String.toList_append]
  exact List.prefix_append _ _

/-- Handlers behind the one whose writes the sink refuses make no difference. -/
theorem writeState_eq_of_isPrefix {other : Dispatcher H} (h : sink.room = some room)
    {reached : List H} (hlt : room < (writesOf reached).length)
    (hreached : reached <+: dispatcher.handlers.toList) (hother : reached <+: other.handlers.toList) :
    other.writeState sink = dispatcher.writeState sink := by
  have hwrites {dispatcher : Dispatcher H} (hreached : reached <+: dispatcher.handlers.toList) :
      dispatcher.writeState sink = sink.writeAll (writesOf reached) := by
    obtain ⟨behind, hbehind⟩ := hreached
    rw [writeState_eq_writeAll_writesOf, ← hbehind, writesOf_append,
      Sink.writeAll_append_of_lt h hlt]
  rw [hwrites hreached, hwrites hother]

/-- A sink takes as many writes of a dump as it has room for, and refuses one more if there is one; the
dump succeeds when there is none. The writes are those of the handlers in their order, each handler
followed by a line feed, and a sink without a limit takes all of them. The record ends with the offer
that is refused: the handlers before the one at work have been dumped to the end, this one up to that
offer, and whatever handlers come after it make no difference. A dump leaves the dispatcher as it was,
so any further steps are answered as without it. -/
theorem dump_stops_at_refusal (dispatcher : Dispatcher H) (sink : Sink) (room : Nat)
    (hroom : sink.room = some room) :
    let handlers := dispatcher.handlers.toList
    let writes := writesOf handlers
    let full := dispatcher.writeState { sink with room := none }
    let record := (writeHandlersRecorded handlers sink).1
    handlers = dispatcher.toList.map (·.2) ∧
      writes.length = (handlers.flatMap Handler.state).length + handlers.length ∧
      full = (true, { sink with pieces := sink.pieces ++ writes.toArray, room := none }) ∧
      ((dispatcher.writeState sink).1 = true ↔ writes.length ≤ room) ∧
      (dispatcher.writeState sink).2.pieces = sink.pieces ++ (writes.take room).toArray ∧
      (dispatcher.writeState sink).2.text.toList <+: full.2.text.toList ∧
      (dispatcher.writeState sink).2.refused =
        sink.refused + (if writes.length ≤ room then 0 else 1) ∧
      (writeHandlersRecorded handlers sink).2 = dispatcher.writeState sink ∧
      (writes.length ≤ room → record = acts handlers) ∧
      (room < writes.length → ∃ before handler later, handlers = before ++ handler :: later ∧
        (writesOf before).length ≤ room ∧
        room < (writesOf before).length + (pieces handler).length ∧
        record = acts before ++ .ask handler ::
          ((pieces handler).take (room - (writesOf before).length + 1)).map .offer ∧
        ∀ other : Dispatcher H, before ++ [handler] <+: other.handlers.toList →
          other.writeState sink = dispatcher.writeState sink) ∧
      ∀ steps, dispatcher.run (.dump sink :: steps) =
        ((dispatcher.run steps).1, .dumped (dispatcher.writeState sink) :: (dispatcher.run steps).2) := by
  intro handlers writes full record
  have hresult : dispatcher.writeState sink = _ := writeState_of_room dispatcher hroom
  refine ⟨(map_snd_toList dispatcher).symm, length_writesOf handlers, ?_, ?_, ?_,
    text_writeState_isPrefix dispatcher hroom, ?_, rfl, ?_, ?_,
    fun steps => rfl⟩
  · exact (writeState_eq_writeAll_writesOf dispatcher _).trans
      (Sink.writeAll_of_room_eq_none rfl writes)
  · rw [hresult, decide_eq_true_iff]
  · rw [hresult]
  · rw [hresult]
  · intro hfits
    obtain ⟨last, -, hrecord⟩ := writeHandlersRecorded_append_of_le hroom hfits []
    rw [List.append_nil] at hrecord
    exact hrecord.trans (List.append_nil _)
  · intro hlt
    obtain ⟨before, handler, later, hsplit, hbefore, hhandler⟩ := exists_handler_of_lt hlt
    refine ⟨before, handler, later, hsplit, hbefore, hhandler, ?_, ?_⟩
    · obtain ⟨last, hlast, hrecord⟩ :=
        writeHandlersRecorded_append_of_le hroom hbefore (handler :: later)
      have hrest : room - (writesOf before).length < (pieces handler).length := by omega
      rw [← hsplit, writeHandlersRecorded_cons_of_lt hlast hrest] at hrecord
      exact hrecord
    · intro other hother
      have hreached : before ++ [handler] <+: dispatcher.handlers.toList :=
        ⟨later, by rw [List.append_assoc]; exact hsplit.symm⟩
      refine writeState_eq_of_isPrefix hroom ?_ hreached hother
      rw [writesOf_append, List.length_append]
      simpa [writesOf] using hhandler

end Dispatcher

/-- The sink has room for five pieces, four of which the first counter takes. The next one is the name of
the second counter, and what is behind it does not fit. -/
theorem Counter.dump_stops_inside :
    let dispatcher := Dispatcher.ofPlan (.chain (ChainPlan.ofMapping Mapping.ipProtocols)) ofSlot
    let answer := dispatcher.writeState (Sink.limited 5)
    answer.1 = false ∧ answer.2.text = "tcpanalyzer6 packets=0\nudpanalyzer11" ∧
      answer.2.refused = 1 ∧
      (Dispatcher.writeHandlersRecorded dispatcher.handlers.toList (Sink.limited 5)).1 =
        [.ask ⟨"tcpanalyzer6", 0⟩, .offer "tcpanalyzer6", .offer " packets=", .offer "0", .offer "\n",
          .ask ⟨"udpanalyzer11", 0⟩, .offer "udpanalyzer11", .offer " packets="] := by
  intro dispatcher answer
  obtain ⟨-, -, -, hok, hpieces, -, hrefused, -, -, hstops, -⟩ :=
    Dispatcher.dump_stops_at_refusal dispatcher (Sink.limited 5) 5 rfl
  have hhandlers : dispatcher.handlers.toList =
      [⟨"tcpanalyzer6", 0⟩, ⟨"udpanalyzer11", 0⟩, ⟨"icmpanalyzer1", 0⟩] := by
    show (Array.map ofSlot _).toList = _
    rw [Array.toList_map]
    rfl
  have hlength : (Dispatcher.writesOf dispatcher.handlers.toList).length = 12 := by
    rw [hhandlers]
    rfl
  have hfull : ¬ (Dispatcher.writesOf dispatcher.handlers.toList).length ≤ 5 := by omega
  refine ⟨Bool.eq_false_iff.2 (mt hok.1 hfull), ?_, ?_, ?_⟩
  · rw [Sink.text, hpieces, hhandlers]
    rfl
  · rw [hrefused, if_neg hfull]
    rfl
  · obtain ⟨before, handler, later, hsplit, hbefore, hhandler, hrecord, -⟩ := hstops (by omega)
    rw [hrecord]
    rw [hhandlers] at hsplit
    -- No handler in front leaves too much room for this, and two leave none.
    rcases before with _ | ⟨first, _ | ⟨second, more⟩⟩
    · cases hsplit
      exact absurd hhandler (by decide)
    · cases hsplit
      rfl
    · simp only [List.cons_append, List.cons.injEq] at hsplit
      obtain ⟨rfl, rfl, -⟩ := hsplit
      have hpieces (counter : Counter) : (Dispatcher.pieces counter).length = 4 := rfl
      rw [Dispatcher.writesOf_cons, Dispatcher.writesOf_cons, List.length_append, List.length_append,
        hpieces, hpieces] at hbefore
      omega

end Switchboard
