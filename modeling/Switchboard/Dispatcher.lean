import Switchboard.Dispatcher.Sink
import Switchboard.Plan

/-!
Dispatchers that run in process: a plan with a handler behind every slot. A dispatcher resolves
identifiers exactly as its plan does. Handlers stand in the order of the slots, and so does the dump
of their states.
-/

namespace Switchboard

/-- What a lookup can return. A handler can tell its state, as the pieces it writes one by one. -/
class Handler (H : Type) where
  state : H → List String

/-- What a dump does: it asks a handler for its state, or it offers a piece to the sink. -/
inductive Act (H : Type)
  | ask (handler : H)
  | offer (piece : String)

structure Dispatcher (H : Type) where
  plan : Plan
  handlers : Array H
  size_handlers : handlers.size = plan.slots.size

namespace Dispatcher

variable {H : Type}

def ofPlan (plan : Plan) (make : Slot → H) : Dispatcher H where
  plan
  handlers := plan.slots.map make
  size_handlers := by simp

def size (dispatcher : Dispatcher H) : Nat :=
  dispatcher.handlers.size

def isEmpty (dispatcher : Dispatcher H) : Bool :=
  dispatcher.handlers.isEmpty

def lookup (dispatcher : Dispatcher H) (identifier : Identifier) : Option H :=
  (dispatcher.plan.find? identifier).bind (dispatcher.handlers[·]?)

/-- Changes the handler of an identifier. Without one, nothing changes. -/
def update (dispatcher : Dispatcher H) (identifier : Identifier) (f : H → H) : Dispatcher H :=
  match dispatcher.plan.find? identifier with
  | none => dispatcher
  | some position =>
    { dispatcher with
      handlers := dispatcher.handlers.modify position f
      size_handlers := by simp [dispatcher.size_handlers] }

/-- Every slot with its handler, in the order of the slots. -/
def toList (dispatcher : Dispatcher H) : List (Slot × H) :=
  dispatcher.plan.slots.toList.zip dispatcher.handlers.toList

variable [Handler H]

/-- Writes the states of some handlers, each followed by a line feed, up to the first refusal, and
records the acts. -/
def writeHandlersRecorded : List H → Sink → List (Act H) × Bool × Sink
  | [], sink => ([], true, sink)
  | handler :: rest, sink =>
    match sink.writeAllRecorded (Handler.state handler) with
    | (offered, false, sink) => (.ask handler :: offered.map .offer, false, sink)
    | (offered, true, sink) =>
      match sink.write "\n" with
      | (false, sink) => (.ask handler :: (offered ++ ["\n"]).map .offer, false, sink)
      | (true, sink) =>
        let last := writeHandlersRecorded rest sink
        (.ask handler :: ((offered ++ ["\n"]).map .offer ++ last.1), last.2)

/-- Writes the state of every handler, each followed by a line feed, up to the first refusal. -/
def writeState (dispatcher : Dispatcher H) (sink : Sink) : Bool × Sink :=
  (writeHandlersRecorded dispatcher.handlers.toList sink).2

end Dispatcher

end Switchboard
