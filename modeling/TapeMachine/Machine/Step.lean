import TapeMachine.Machine.Event
import TapeMachine.Machine.State

/-!
# One step of a machine

A step fetches one operation and executes it or, inside a loop that was not entered, passes over
it. A loop is entered at an opening bracket on a non-zero cell. At its closing bracket a non-zero
cell sends the machine back to the opening bracket, which is then executed again; so the position
of the loop is taken off the stack at every closing bracket and put back by the opening one. A step
that meets a fault halts the machine, and a halted machine does nothing.
-/

namespace TapeMachine

/-- The outcome of a step: the machine after it, the fault if it failed, and what was reported. -/
structure Step where
  machine : Machine
  fault : Option Fault
  events : List Event

namespace Step

/-- A step after which the machine goes on. -/
def quiet (m : Machine) : Step := ⟨m, none, []⟩

/-- A step that fails. -/
def failed (fault : Fault) (m : Machine) : Step := ⟨{ m with mode := .halted }, some fault, []⟩

/-- A step that meets the end of the program. -/
def ended (unclosed : Nat) (m : Machine) : Step :=
  ⟨{ m with mode := .halted, unclosedLoops := unclosed }, none,
    if unclosed = 0 then [] else [.endedInsideLoop unclosed]⟩

end Step

namespace Machine

/-- Obtains the next operation: through the recording if there is one, else from the source. -/
def fetch (m : Machine) : Except Fault (Option Op) × Machine :=
  if m.recording.isActive then
    let (result, recording, source) := m.recording.fetch m.source
    (result, { m with recording := recording, source := source })
  else
    let (result, source) := m.source.next
    (result, { m with source := source })

/-- Moves the cursor. -/
def moveCursor (direction : Direction) (m : Machine) : Step :=
  let (result, tape) := m.tape.move direction
  let m := { m with tape := tape }
  match result with
  | .ok () => .quiet m
  | .error fault => .failed fault m

/-- Reads from the input into the current cell. -/
def readInput (m : Machine) : Step :=
  let (result, input) := readByte m.input
  let m := { m with input := input }
  match result with
  | .ok value => .quiet { m with tape := m.tape.set (m.config.stored value) }
  | .error error => .failed (.unavailable .input error) m

/-- Puts out the current cell. -/
def writeOutput (m : Machine) : Step :=
  let (result, sink) := m.sink.put m.tape.current
  let m := { m with sink := sink }
  match result with
  | .ok () => .quiet { m with outputBytes := m.outputBytes + 1 }
  | .error fault => .failed fault m

/-- Executes an opening bracket that has been fetched. Outside every loop this starts a recording
of which the bracket is the first operation. -/
def enterLoop (m : Machine) : Step :=
  if m.tape.current = 0 then .quiet { m with mode := .skipping 1 }
  else
    let recording := if m.recording.isActive then m.recording else .start .loopOpen
    let position := recording.lastPosition
    let loops := m.loops.push position
    ⟨{ m with recording := recording, loops := loops }, none, [.enterLoop position loops.depth]⟩

/-- Executes a closing bracket that has been fetched. The bracket is unmatched if no loop has been
entered; its own byte is then the last one consumed. Leaving the outermost loop ends the
recording. -/
def closeLoop (m : Machine) : Step :=
  let (result, loops) := m.loops.pop
  let m := { m with loops := loops }
  match result with
  | .error _ => .failed (.unmatchedClose (m.source.offset - 1)) m
  | .ok position =>
    if m.tape.current ≠ 0 then .quiet { m with recording := m.recording.rewind position }
    else if m.loops.isEmpty then
      ⟨{ m with recording := .empty }, none, [.leaveLoop m.recording.size]⟩
    else .quiet m

/-- Executes an operation that has been fetched and counted. -/
def execute (m : Machine) : Op → Step
  | .increment => .quiet { m with tape := m.tape.increment }
  | .decrement => .quiet { m with tape := m.tape.decrement }
  | .right => m.moveCursor .right
  | .left => m.moveCursor .left
  | .input => m.readInput
  | .output => m.writeOutput
  | .loopOpen => m.enterLoop
  | .loopClose => m.closeLoop

/-- The report made of an operation that has been fetched and is not yet executed. -/
def dispatched (m : Machine) (op : Op) : Event :=
  .dispatch op m.recording.cursor m.tape.cursor m.tape.current

/-- Fetches one operation and executes it. -/
def executeNext (m : Machine) : Step :=
  match m.fetch with
  | (.error fault, m) => .failed fault m
  | (.ok none, m) => .ended m.loops.depth m
  | (.ok (some op), m) =>
    let event := m.dispatched op
    let m := { m with steps := m.steps + 1 }
    let step := m.execute op
    { step with events := event :: step.events }

/-- The number of brackets still to be closed after an operation has been passed over. -/
def depthAfter (depth : Nat) : Op → Nat
  | .loopOpen => depth + 1
  | .loopClose => depth - 1
  | _ => depth

/-- Fetches one operation and passes over it. -/
def skipNext (depth : Nat) (m : Machine) : Step :=
  match m.fetch with
  | (.error fault, m) => .failed fault m
  | (.ok none, m) => .ended (m.loops.depth + depth) m
  | (.ok (some op), m) => .quiet { m with mode := .within (depthAfter depth op) }

/-- One step. -/
def step (m : Machine) : Step :=
  match m.mode with
  | .halted => .quiet m
  | .running => m.executeNext
  | .skipping depth => m.skipNext depth

theorem step_of_halted {m : Machine} (h : m.mode = .halted) : m.step = .quiet m := by
  simp [step, h]

theorem moveCursor_fault {m : Machine} {direction : Direction} {fault : Fault}
    (h : (m.moveCursor direction).fault = some fault) :
    (m.moveCursor direction).machine.mode = .halted := by
  unfold moveCursor at h ⊢
  dsimp only at h ⊢
  split at h <;> simp_all [Step.quiet, Step.failed]

theorem readInput_fault {m : Machine} {fault : Fault} (h : m.readInput.fault = some fault) :
    m.readInput.machine.mode = .halted := by
  unfold readInput at h ⊢
  dsimp only at h ⊢
  split at h <;> simp_all [Step.quiet, Step.failed]

theorem writeOutput_fault {m : Machine} {fault : Fault} (h : m.writeOutput.fault = some fault) :
    m.writeOutput.machine.mode = .halted := by
  unfold writeOutput at h ⊢
  dsimp only at h ⊢
  split at h <;> simp_all [Step.quiet, Step.failed]

theorem enterLoop_fault (m : Machine) : m.enterLoop.fault = none := by
  unfold enterLoop
  split <;> rfl

theorem closeLoop_fault {m : Machine} {fault : Fault} (h : m.closeLoop.fault = some fault) :
    m.closeLoop.machine.mode = .halted := by
  unfold closeLoop at h ⊢
  dsimp only at h ⊢
  split at h
  · simp_all [Step.failed]
  · repeat' split at h
    all_goals simp [Step.quiet] at h

theorem execute_fault {m : Machine} {op : Op} {fault : Fault}
    (h : (m.execute op).fault = some fault) : (m.execute op).machine.mode = .halted := by
  cases op with
  | increment | decrement => simp [execute, Step.quiet] at h
  | right | left => exact moveCursor_fault h
  | input => exact readInput_fault h
  | output => exact writeOutput_fault h
  | loopOpen => exact absurd h (by simp [execute, enterLoop_fault])
  | loopClose => exact closeLoop_fault h

theorem executeNext_fault {m : Machine} {fault : Fault} (h : m.executeNext.fault = some fault) :
    m.executeNext.machine.mode = .halted := by
  unfold executeNext at h ⊢
  split
  · rfl
  · rfl
  · next hf =>
    rw [hf] at h
    exact execute_fault h

theorem skipNext_fault {m : Machine} {depth : Nat} {fault : Fault}
    (h : (m.skipNext depth).fault = some fault) : (m.skipNext depth).machine.mode = .halted := by
  unfold skipNext at h ⊢
  split
  · rfl
  · rfl
  · next hf =>
    rw [hf] at h
    exact absurd h (by simp [Step.quiet])

/-- A step that fails leaves the machine halted. -/
theorem mode_of_fault {m : Machine} {fault : Fault} (h : m.step.fault = some fault) :
    m.step.machine.mode = .halted := by
  cases hm : m.mode with
  | halted => rw [step_of_halted hm]; exact hm
  | running => simp only [step, hm] at h ⊢; exact executeNext_fault h
  | skipping depth => simp only [step, hm] at h ⊢; exact skipNext_fault h

end Machine

end TapeMachine
