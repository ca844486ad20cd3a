import TapeMachine.Fault

/-!
# The output sink

A sink is known through its answers to write and flush calls, given here as two lists; past the end
of a list every call succeeds. One byte is put out by writing it, repeating interrupted writes, and
then flushing once. A flush is never repeated, so a byte whose flush failed has been taken.
-/

namespace TapeMachine

/-- The answer of one write call. -/
inductive WriteReply where
  | taken
  /-- The call succeeded and took nothing. -/
  | refused
  | interrupted
  | failure (error : IoError)
  deriving DecidableEq

/-- The answer of one flush call. -/
inductive FlushReply where
  | done
  | failure (error : IoError)
  deriving DecidableEq

/-- A sink: the answers it will still give, the bytes it took and the calls made to it. -/
structure Sink where
  writes : List WriteReply
  flushes : List FlushReply
  bytes : Array UInt8
  writeCalls : Nat
  flushCalls : Nat

namespace Sink

/-- A fresh sink with the given answers. -/
def ofReplies (writes : List WriteReply) (flushes : List FlushReply) : Sink :=
  ⟨writes, flushes, #[], 0, 0⟩

/-- A fresh sink that takes everything. -/
def accepting : Sink := ofReplies [] []

/-- The cause reported when a write call took nothing. -/
def nothingTaken : IoError := ⟨"failed to write whole buffer"⟩

/-- The outcome of writing one byte: the answers left, and the number of calls made. -/
def deliver : List WriteReply → Nat → Except IoError Unit × List WriteReply × Nat
  | [], calls => (.ok (), [], calls + 1)
  | .interrupted :: rest, calls => deliver rest (calls + 1)
  | .taken :: rest, calls => (.ok (), rest, calls + 1)
  | .refused :: rest, calls => (.error nothingTaken, rest, calls + 1)
  | .failure error :: rest, calls => (.error error, rest, calls + 1)

/-- Writes one byte without flushing. -/
def write (value : UInt8) (s : Sink) : Except IoError Unit × Sink :=
  match deliver s.writes s.writeCalls with
  | (.ok (), writes, writeCalls) =>
    (.ok (), { s with writes := writes, writeCalls := writeCalls, bytes := s.bytes.push value })
  | (.error error, writes, writeCalls) =>
    (.error error, { s with writes := writes, writeCalls := writeCalls })

/-- Makes one flush call. -/
def flush (s : Sink) : Except IoError Unit × Sink :=
  let called := { s with flushes := s.flushes.tail, flushCalls := s.flushCalls + 1 }
  match s.flushes.head? with
  | some (.failure error) => (.error error, called)
  | some .done | none => (.ok (), called)

/-- Writes one byte and flushes it. After a failed write there is no flush. -/
def put (value : UInt8) (s : Sink) : Except Fault Unit × Sink :=
  match s.write value with
  | (.error error, s) => (.error (.sinkUnavailable error), s)
  | (.ok (), s) =>
    match s.flush with
    | (.error error, s) => (.error (.sinkUnavailable error), s)
    | (.ok (), s) => (.ok (), s)

end Sink

end TapeMachine
