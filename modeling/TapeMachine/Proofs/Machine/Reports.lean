import TapeMachine.Machine.Straight
import TapeMachine.Proofs.Machine.Halting

/-!
# What a machine reports

The reports of a run are those of its steps, one after another. A halted machine reports nothing, so
a run that stops early has reported everything. An operation that is executed gives no warning: the
one warning that there is belongs to the end of the program.
-/

namespace TapeMachine

/-- The event is reported as a warning. -/
def Event.isWarning (e : Event) : Bool := e.record.severity = .warn

namespace Machine

variable {m : Machine} {op : Op} {count later : Nat}

@[simp] theorem eventsOf_zero (m : Machine) : m.eventsOf 0 = [] := rfl

theorem eventsOf_succ (count : Nat) (m : Machine) :
    m.eventsOf (count + 1) = m.step.events ++ m.step.machine.eventsOf count := rfl

theorem eventsOf_add (first second : Nat) (m : Machine) :
    m.eventsOf (first + second) = m.eventsOf first ++ (m.after first).eventsOf second := by
  induction first generalizing m with
  | zero => simp
  | succ first ih =>
    rw [Nat.succ_add, eventsOf_succ, eventsOf_succ, ih, after_succ, List.append_assoc]

theorem eventsOf_succ_eq_append (count : Nat) (m : Machine) :
    m.eventsOf (count + 1) = m.eventsOf count ++ (m.after count).step.events := by
  rw [eventsOf_add, eventsOf_succ, eventsOf_zero, List.append_nil]

theorem eventsOf_of_halted (h : m.mode = .halted) (count : Nat) : m.eventsOf count = [] := by
  induction count with
  | zero => rfl
  | succ count ih =>
    rw [eventsOf_succ, step_of_halted h]
    exact ih

/-- From the step that halts a machine on nothing more is reported. -/
theorem eventsOf_of_halted_le (h : (m.after count).mode = .halted) (hle : count ≤ later) :
    m.eventsOf later = m.eventsOf count := by
  rw [← Nat.add_sub_of_le hle, eventsOf_add, eventsOf_of_halted h, List.append_nil]

theorem warnings_execute (op : Op) (m : Machine) :
    (m.execute op).events.filter Event.isWarning = [] := by
  cases op with
  | increment | decrement => rfl
  | right | left =>
    simp only [execute, moveCursor]
    split <;> rfl
  | input =>
    simp only [execute, readInput]
    split <;> rfl
  | output =>
    simp only [execute, writeOutput]
    split <;> rfl
  | loopOpen =>
    simp only [execute, enterLoop]
    split <;> rfl
  | loopClose =>
    simp only [execute, closeLoop]
    split
    · rfl
    · split
      · rfl
      · split <;> rfl

/-- A machine that goes on has given no warning. -/
theorem warnings_step (h : m.step.machine.mode ≠ .halted) :
    m.step.events.filter Event.isWarning = [] := by
  unfold step executeNext skipNext at h ⊢
  cases hmode : m.mode with
  | halted => rfl
  | running =>
    rcases hfetch : m.fetch with ⟨fault | _ | op, m'⟩
    · rfl
    · simp [hmode, hfetch, Step.ended] at h
    · rw [List.filter_cons_of_neg (by simp [dispatched, Event.isWarning, Event.record])]
      exact warnings_execute op _
  | skipping depth =>
    rcases hfetch : m.fetch with ⟨fault | _ | op, m'⟩
    · rfl
    · simp [hmode, hfetch, Step.ended] at h
    · rfl

theorem warnings_eventsOf (h : (m.after count).mode ≠ .halted) :
    (m.eventsOf count).filter Event.isWarning = [] := by
  induction count with
  | zero => rfl
  | succ count ih =>
    rw [after_succ_eq_step] at h
    rw [eventsOf_succ_eq_append, List.filter_append, ih (mode_ne_halted_of_step h),
      warnings_step h, List.append_nil]

end Machine

end TapeMachine
