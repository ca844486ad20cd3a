import TapeMachine.Machine.Straight
import TapeMachine.Machine.Upcoming
import TapeMachine.Main
import TapeMachine.Proofs.Command.Faithful
import TapeMachine.Proofs.Command.OptionValues
import TapeMachine.Proofs.Loops.CountingLoop
import TapeMachine.Proofs.Loops.EnclosedEffects
import TapeMachine.Proofs.Loops.Unfolding
import TapeMachine.Proofs.Machine.Anticipation
import TapeMachine.Proofs.Machine.BrokenProgram
import TapeMachine.Proofs.Machine.Defined
import TapeMachine.Proofs.Machine.Excursion
import TapeMachine.Proofs.Machine.Failing
import TapeMachine.Proofs.Machine.Hearing
import TapeMachine.Proofs.Machine.LoopReports
import TapeMachine.Proofs.Machine.Retracing
import TapeMachine.Proofs.Machine.Sequence
import TapeMachine.Proofs.Machine.Silence
import TapeMachine.Proofs.Machine.UnclosedLoops
import TapeMachine.Proofs.Program.Rewinding
import TapeMachine.Proofs.Resident.Streaming
import TapeMachine.Proofs.Tape.Calls
import TapeMachine.Resident
import TapeMachine.Proofs.Command.OptionValues
