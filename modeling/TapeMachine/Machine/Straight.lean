import TapeMachine.Machine.Run

/-!
# Straight execution

Operations executed one after another, with brackets passed over. This is how the operations that
a machine reports can be executed again: it has made the decisions about loops, and they show in
the order of what it reports. A failing operation has no effect here beyond the input it consumes.
-/

namespace TapeMachine

/-- What straight execution works on. -/
structure Straight where
  tape : Tape
  input : List ReadEvent
  output : Array UInt8

namespace Straight

/-- A fresh tape and the given input. -/
def initial (config : Config) (input : List ReadEvent) : Straight :=
  ⟨.blank config.tapeSize config.boundary, input, #[]⟩

/-- Executes one operation. -/
def apply (config : Config) (s : Straight) : Op → Straight
  | .increment => { s with tape := s.tape.increment }
  | .decrement => { s with tape := s.tape.decrement }
  | .right => { s with tape := (s.tape.move .right).2 }
  | .left => { s with tape := (s.tape.move .left).2 }
  | .input =>
    match readByte s.input with
    | (.ok value, rest) => { s with input := rest, tape := s.tape.set (config.stored value) }
    | (.error _, rest) => { s with input := rest }
  | .output => { s with output := s.output.push s.tape.current }
  | .loopOpen | .loopClose => s

/-- Executes operations in order. -/
def applyAll (config : Config) (s : Straight) (ops : List Op) : Straight :=
  ops.foldl (apply config) s

end Straight

/-- The operation that an event reports, if it reports one. -/
def Event.op? : Event → Option Op
  | dispatch op .. => some op
  | _ => none

namespace Machine

/-- The events of a number of steps. -/
def eventsOf : Nat → Machine → List Event
  | 0, _ => []
  | count + 1, m => m.step.events ++ eventsOf count m.step.machine

/-- The operations that a number of steps report. -/
def dispatchedOps (count : Nat) (m : Machine) : List Op := (m.eventsOf count).filterMap Event.op?

end Machine

end TapeMachine
