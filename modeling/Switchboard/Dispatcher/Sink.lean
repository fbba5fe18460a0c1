/-!
Sinks: where state is written to, piece by piece. A sink may have room for a limited number of
pieces; it refuses every piece after them, and a writer stops at the first refusal.
-/

namespace Switchboard

/-- What has been written, and how many more pieces there is room for (no limit if not given). -/
structure Sink where
  pieces : Array String := #[]
  room : Option Nat := none
  refused : Nat := 0
deriving DecidableEq, Repr

namespace Sink

def limited (room : Nat) : Sink :=
  { room := some room }

def text (sink : Sink) : String :=
  String.join sink.pieces.toList

/-- Writes a piece; the answer is whether the sink took it. -/
def write (piece : String) (sink : Sink) : Bool × Sink :=
  match sink.room with
  | none => (true, { sink with pieces := sink.pieces.push piece })
  | some 0 => (false, { sink with refused := sink.refused + 1 })
  | some (room + 1) => (true, { sink with pieces := sink.pieces.push piece, room := some room })

/-- Writes some pieces, stops at the first refusal, and records what is offered: the last piece of the
record is the refused one, if there is one. -/
def writeAllRecorded : List String → Sink → List String × Bool × Sink
  | [], sink => ([], true, sink)
  | piece :: rest, sink =>
    match sink.write piece with
    | (true, sink) =>
      let last := writeAllRecorded rest sink
      (piece :: last.1, last.2)
    | (false, sink) => ([piece], false, sink)

/-- Writes some pieces and stops at the first refusal. -/
def writeAll (pieces : List String) (sink : Sink) : Bool × Sink :=
  (sink.writeAllRecorded pieces).2

end Sink

end Switchboard
