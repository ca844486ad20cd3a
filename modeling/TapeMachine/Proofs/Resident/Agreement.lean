import TapeMachine.Proofs.Machine.Step
import TapeMachine.Resident

/-!
# Agreement on the data

A machine and an evaluator agree when their tapes, their inputs and their outputs are the same and
the sink of the machine takes everything. An operation that is no bracket keeps them in agreement:
it goes on in both or fails in both with the same fault.
-/

namespace TapeMachine.Machine

open Brackets

variable {m m' : Machine} {r : Resident} {op : Op} {offset : Nat}

structure Agrees (m : Machine) (r : Resident) : Prop where
  config : m.config = r.config
  tape : m.tape = r.tape
  input : m.input = r.input
  writes : m.sink.writes = []
  flushes : m.sink.flushes = []
  output : m.sink.bytes = r.output
  outputBytes : m.outputBytes = r.output.size

/-- The evaluator goes on with the same program at a position, in agreement with a machine. -/
def Continues (r : Resident) (position : Nat) (m : Machine) : Prop :=
  ∃ r', r.step = .next r' ∧ r'.position = position ∧ r'.listing = r.listing ∧ m.Agrees r'

/-- The evaluator stops, in agreement with a machine. -/
def Stops (r : Resident) (fault : Option Fault) (m : Machine) : Prop :=
  ∃ r', r.step = .stop r' fault ∧ m.Agrees r'

/-- Only the data matters. -/
theorem Agrees.of_eq (h : Agrees m r) (hconfig : m'.config = m.config) (htape : m'.tape = m.tape)
    (hinput : m'.input = m.input) (hsink : m'.sink = m.sink)
    (hbytes : m'.outputBytes = m.outputBytes) : Agrees m' r where
  config := hconfig.trans h.config
  tape := htape.trans h.tape
  input := hinput.trans h.input
  writes := by rw [hsink, h.writes]
  flushes := by rw [hsink, h.flushes]
  output := by rw [hsink, h.output]
  outputBytes := hbytes.trans h.outputBytes

theorem Agrees.moved (h : Agrees m r) (position : Nat) :
    Agrees m { r with position := position } :=
  ⟨h.config, h.tape, h.input, h.writes, h.flushes, h.output, h.outputBytes⟩

theorem put_accepting {sink : Sink} (hwrites : sink.writes = []) (hflushes : sink.flushes = [])
    (value : UInt8) :
    sink.put value = (.ok (), { sink with
      bytes := sink.bytes.push value
      writeCalls := sink.writeCalls + 1
      flushCalls := sink.flushCalls + 1 }) := by
  obtain ⟨writes, flushes, bytes, writeCalls, flushCalls⟩ := sink
  cases hwrites
  cases hflushes
  rfl

theorem Agrees.moveCursor (h : Agrees m r) (direction : Direction)
    (hstep : r.step = r.moveCursor direction) :
    ((m.moveCursor direction).fault = none ∧
        Continues r (r.position + 1) (m.moveCursor direction).machine) ∨
      ∃ fault, (m.moveCursor direction).fault = some fault ∧
        Stops r (some fault) (m.moveCursor direction).machine := by
  unfold Continues Stops
  rw [hstep, Resident.moveCursor, Machine.moveCursor, h.tape]
  rcases r.tape.move direction with ⟨result, tape⟩
  cases result with
  | ok =>
    exact Or.inl ⟨rfl, _, rfl, rfl, rfl, h.config, rfl, h.input, h.writes, h.flushes, h.output,
      h.outputBytes⟩
  | error fault =>
    exact Or.inr ⟨fault, rfl, _, rfl, h.config, rfl, h.input, h.writes, h.flushes, h.output,
      h.outputBytes⟩

theorem Agrees.readInput (h : Agrees m r) (hstep : r.step = r.readInput) :
    (m.readInput.fault = none ∧ Continues r (r.position + 1) m.readInput.machine) ∨
      ∃ fault, m.readInput.fault = some fault ∧ Stops r (some fault) m.readInput.machine := by
  unfold Continues Stops
  rw [hstep, Resident.readInput, Machine.readInput, h.input]
  rcases readByte r.input with ⟨result, input⟩
  cases result with
  | ok value =>
    refine Or.inl ⟨rfl, _, rfl, rfl, rfl, h.config, ?_, rfl, h.writes, h.flushes, h.output,
      h.outputBytes⟩
    change m.tape.set (m.config.stored value) = r.tape.set (r.config.stored value)
    rw [h.tape, h.config]
  | error error =>
    exact Or.inr ⟨_, rfl, _, rfl, h.config, h.tape, rfl, h.writes, h.flushes, h.output,
      h.outputBytes⟩

theorem Agrees.writeOutput (h : Agrees m r)
    (hstep : r.step = { r with output := r.output.push r.tape.current }.advance) :
    m.writeOutput.fault = none ∧ Continues r (r.position + 1) m.writeOutput.machine := by
  rw [Continues, hstep, Machine.writeOutput, put_accepting h.writes h.flushes]
  refine ⟨rfl, _, rfl, rfl, rfl, h.config, h.tape, h.input, h.writes, h.flushes, ?_, ?_⟩
  · change m.sink.bytes.push m.tape.current = r.output.push r.tape.current
    rw [h.output, h.tape]
  · change m.outputBytes + 1 = (r.output.push r.tape.current).size
    rw [h.outputBytes, Array.size_push]

/-- A machine and an evaluator in agreement execute the same operation with the same outcome. -/
theorem Agrees.execute (h : Agrees m r) (hp : Plain op)
    (hop : r.listing.ops[r.position]? = some (offset, op)) :
    ((m.execute op).fault = none ∧ Continues r (r.position + 1) (m.execute op).machine) ∨
      ∃ fault, (m.execute op).fault = some fault ∧ Stops r (some fault) (m.execute op).machine := by
  cases op with
  | increment =>
    unfold Continues
    rw [Resident.step, hop]
    exact Or.inl ⟨rfl, _, rfl, rfl, rfl, h.config, congrArg Tape.increment h.tape, h.input,
      h.writes, h.flushes, h.output, h.outputBytes⟩
  | decrement =>
    unfold Continues
    rw [Resident.step, hop]
    exact Or.inl ⟨rfl, _, rfl, rfl, rfl, h.config, congrArg Tape.decrement h.tape, h.input,
      h.writes, h.flushes, h.output, h.outputBytes⟩
  | right => exact h.moveCursor .right (by rw [Resident.step, hop])
  | left => exact h.moveCursor .left (by rw [Resident.step, hop])
  | input => exact h.readInput (by rw [Resident.step, hop])
  | output => exact Or.inl (h.writeOutput (by rw [Resident.step, hop]))
  | loopOpen => exact absurd rfl hp.1
  | loopClose => exact absurd rfl hp.2

theorem Agrees.enterLoop (h : Agrees m r) : Agrees m.enterLoop.machine r := by
  rw [enterLoop_same]
  exact h.of_eq rfl rfl rfl rfl rfl

theorem Agrees.closeLoop (h : Agrees m r) : Agrees m.closeLoop.machine r := by
  rw [closeLoop_same]
  exact h.of_eq rfl rfl rfl rfl rfl

end TapeMachine.Machine
