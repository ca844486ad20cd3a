import TapeMachine.Fault
import TapeMachine.Op

/-!
# The program as a stream of operations

A source reads its program byte by byte, once and in order, and passes over comments. It counts the
bytes it has consumed. A failed read is reported and may be followed by further operations; an end
of stream is final, and nothing is read after it.
-/

namespace TapeMachine

/-- A program being read: the answers of the reads still to be made, the number of bytes consumed,
which is taken to stay below 2^64, and whether the end of the stream has been met. -/
structure Source where
  events : List ReadEvent
  offset : Nat
  exhausted : Bool
  deriving DecidableEq

namespace Source

/-- A program of which nothing has been read. -/
def ofEvents (events : List ReadEvent) : Source := ⟨events, 0, false⟩

/-- Reads on to the next operation, the end of the stream or a failure. -/
def scan : List ReadEvent → Nat → Except Fault (Option Op) × Source
  | [], offset => (.ok none, ⟨[], offset, true⟩)
  | .endOfStream :: rest, offset => (.ok none, ⟨rest, offset, true⟩)
  | .interrupted :: rest, offset => scan rest offset
  | .failure error :: rest, offset => (.error (.unavailable .program error), ⟨rest, offset, false⟩)
  | .byte value :: rest, offset =>
    match Op.ofByte? value with
    | some op => (.ok (some op), ⟨rest, offset + 1, false⟩)
    | none => scan rest (offset + 1)

/-- The next operation, or `none` at the end of the program. -/
def next (s : Source) : Except Fault (Option Op) × Source :=
  if s.exhausted then (.ok none, s) else scan s.events s.offset

@[simp] theorem next_of_exhausted {s : Source} (h : s.exhausted = true) :
    s.next = (.ok none, s) := by
  simp [next, h]

end Source

end TapeMachine
