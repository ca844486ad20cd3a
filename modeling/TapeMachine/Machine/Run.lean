import TapeMachine.Machine.Step

/-!
# Runs of a machine

Several steps in a row. `after` follows the machine alone; `advance` also collects what is
reported and stops early once the machine has halted. A run goes on until then and is given fuel,
because a machine may never halt.
-/

namespace TapeMachine

/-- The outcome of several steps: the machine after them, the fault if the last one failed, and
what was reported. -/
structure Run where
  machine : Machine
  fault : Option Fault
  events : Array Event

namespace Machine

/-- The machine after a number of steps. -/
def after : Nat → Machine → Machine
  | 0, m => m
  | count + 1, m => after count m.step.machine

/-- Makes up to `limit` steps and stops after one that leaves the machine halted. What is reported
is appended to `log`. -/
def advance : Nat → Machine → Array Event → Run
  | 0, m, log => ⟨m, none, log⟩
  | limit + 1, m, log =>
    let step := m.step
    let log := log ++ step.events
    match step.machine.mode with
    | .halted => ⟨step.machine, step.fault, log⟩
    | _ => advance limit step.machine log

/-- What is reported of a run without a fault when it is over. -/
def closing (m : Machine) : Event := .finished m.steps m.outputBytes m.source.offset

/-- Runs until the machine halts, and reports the counts if no step failed. The result is `none`
if the fuel is spent before that. -/
def run (fuel : Nat) (m : Machine) : Option Run :=
  let r := m.advance fuel #[]
  match r.machine.mode, r.fault with
  | .halted, none => some { r with events := r.events.push r.machine.closing }
  | .halted, some _ => some r
  | _, _ => none

/-- What can be seen of a machine between two steps. -/
structure View where
  mode : Mode
  cursor : Nat
  cell : UInt8
  loopDepth : Nat
  recorded : Nat
  programBytes : Nat
  deriving DecidableEq

def view (m : Machine) : View :=
  ⟨m.mode, m.tape.cursor, m.tape.current, m.loops.depth, m.recording.size, m.source.offset⟩

/-- The views after each successful step of `advance`, appended to `seen`. -/
def watch : Nat → Machine → Array View → Array View
  | 0, _, seen => seen
  | limit + 1, m, seen =>
    let step := m.step
    match step.fault with
    | some _ => seen
    | none =>
      let seen := seen.push step.machine.view
      match step.machine.mode with
      | .halted => seen
      | _ => watch limit step.machine seen

@[simp] theorem after_zero (m : Machine) : m.after 0 = m := rfl

theorem after_succ (count : Nat) (m : Machine) :
    m.after (count + 1) = m.step.machine.after count := rfl

theorem after_add (first second : Nat) (m : Machine) :
    m.after (first + second) = (m.after first).after second := by
  induction first generalizing m with
  | zero => simp
  | succ first ih => rw [Nat.succ_add, after_succ, after_succ, ih]

/-- A halted machine stays as it is. -/
theorem after_of_halted {m : Machine} (h : m.mode = .halted) (count : Nat) : m.after count = m := by
  induction count with
  | zero => rfl
  | succ count ih => rw [after_succ, step_of_halted h]; exact ih

/-- Stopping early makes no difference to the machine. -/
theorem machine_advance (limit : Nat) (m : Machine) (log : Array Event) :
    (m.advance limit log).machine = m.after limit := by
  induction limit generalizing m log with
  | zero => rfl
  | succ limit ih =>
    rw [after_succ]
    unfold advance
    dsimp only
    split
    · exact (after_of_halted (by assumption) limit).symm
    · exact ih _ _

end Machine

end TapeMachine
