import TapeMachine.Diagnostics.Record

/-!
# Logging

Which records are written, and how, is decided by a subscriber. It is made from a text, but how
such a text is read is not fixed here. The command only takes care that there is a subscriber in any
case.
-/

namespace TapeMachine

/-- Whether the command speaks of itself in a line. -/
def Command.isOwn (line : String) : Bool := "streambf:".toList.isPrefixOf line.toList

/-- What is written of each record, if anything is. The line begins with the time or the severity of
the record, so in none of them the command speaks of itself. -/
structure Subscriber where
  line? : Record → Option String
  isOwn_line : ∀ {r line}, line? r = some line → Command.isOwn line = false

/-- The lines that are written of some records. -/
def Subscriber.lines (s : Subscriber) (records : List Record) : List String :=
  records.filterMap s.line?

/-- A way to make subscribers from texts. -/
structure Logging where
  /-- Reads a text as a whole, if that is possible. -/
  read? : String → Option Subscriber
  /-- Reads as much of a text as possible. -/
  readPart : String → Subscriber

/-- The subscriber in force, for the text that was given. If there is none that can be read, it is
that of warnings. -/
def Logging.inForce (l : Logging) (text : Option String) : Subscriber :=
  (text.bind l.read?).getD (l.readPart "warn")

end TapeMachine
