import TapeMachine.LoopStack
import TapeMachine.Stream.Reading

/-!
# Faults

Everything that can end a run before the program does. A fault records what happened; its wording
is given by `message`, and the texts of the causes beneath it by `causes`.
-/

namespace TapeMachine

/-- A direction in which the cursor moves. -/
inductive Direction where
  | left
  | right
  deriving DecidableEq

def Direction.name : Direction → String
  | left => "left"
  | right => "right"

/-- The two streams that a machine reads. -/
inductive StreamName where
  | program
  | input
  deriving DecidableEq

def StreamName.name : StreamName → String
  | program => "program"
  | input => "input"

/-- Why a configuration is refused. -/
inductive ConfigProblem where
  | noCells
  deriving DecidableEq

def ConfigProblem.text : ConfigProblem → String
  | noCells => "tape size must be positive"

/-- A reason for which a machine stops or is not started. -/
inductive Fault where
  /-- A closing bracket, at a byte offset of the program text, that closes no open loop. -/
  | unmatchedClose (offset : Nat)
  /-- A move past an end of the tape that the boundary does not allow. -/
  | outOfBounds (cursor size : Nat) (direction : Direction)
  /-- A read of a stream that failed. -/
  | unavailable (stream : StreamName) (cause : IoError)
  /-- A byte that the sink did not take or did not pass on. -/
  | sinkUnavailable (cause : IoError)
  | invalidConfig (problem : ConfigProblem)
  deriving DecidableEq

namespace Fault

def message : Fault → String
  | unmatchedClose offset =>
    "unbalanced brackets: `]` at program byte " ++ toString offset ++ " has no matching `[`"
  | outOfBounds cursor size direction =>
    "tape bounds: cannot move " ++ direction.name ++ " from cell " ++ toString cursor
      ++ " of " ++ toString size
  | unavailable stream _ => stream.name ++ " stream unavailable"
  | sinkUnavailable _ => "output sink unavailable"
  | invalidConfig problem => "invalid configuration: " ++ problem.text

/-- The texts of the causes beneath the fault, the nearest first. -/
def causes : Fault → List String
  | unmatchedClose _ => [EmptyStack.message {}]
  | unavailable _ cause => [cause.text]
  | sinkUnavailable cause => [cause.text]
  | outOfBounds .. | invalidConfig _ => []

/-- The message followed by its causes, as one line. -/
def report (fault : Fault) : String := ": ".intercalate (fault.message :: fault.causes)

end Fault

end TapeMachine
