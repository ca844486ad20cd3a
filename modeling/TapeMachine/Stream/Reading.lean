/-!
# Reading one byte at a time

A byte stream is known only through the answers of successive one-byte reads, given here as a list.
Past the end of the list every read reports the end of the stream. An interrupted read is repeated
at once and has no other effect, so a reader sees a byte, the end of the stream or a failure.
-/

namespace TapeMachine

/-- A failure of the outside world, known by its text only. -/
structure IoError where
  text : String
  deriving DecidableEq

/-- The answer of one read call. -/
inductive ReadEvent where
  | byte (value : UInt8)
  | endOfStream
  | interrupted
  | failure (error : IoError)
  deriving DecidableEq

/-- Reads one byte, repeating interrupted reads. The result is `none` at the end of the stream, and
the remaining answers are returned beside it. An end of stream is consumed like any other answer, so
a stream may go on after it. -/
def readByte : List ReadEvent → Except IoError (Option UInt8) × List ReadEvent
  | [] => (.ok none, [])
  | .interrupted :: rest => readByte rest
  | .byte value :: rest => (.ok (some value), rest)
  | .endOfStream :: rest => (.ok none, rest)
  | .failure error :: rest => (.error error, rest)

end TapeMachine
