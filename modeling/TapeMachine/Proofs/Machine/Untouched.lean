import TapeMachine.Proofs.Machine.Halting
import TapeMachine.Proofs.Machine.Step

/-!
# What a step does not touch

A fetch changes the recording and the source only, and an execution neither the source nor the
settings. The number of unclosed loops is set by the end of the program and by nothing else.
-/

namespace TapeMachine.Machine

variable {m : Machine}

theorem fetch_same (m : Machine) :
    m.fetch.2 = { m with recording := m.fetch.2.recording, source := m.fetch.2.source } := by
  unfold fetch
  split <;> rfl

theorem fetch_error {fault : Fault} (h : m.fetch.1 = .error fault) :
    ∃ error, fault = .unavailable .program error := by
  by_cases hlt : m.recording.cursor < m.recording.ops.size
  · rw [fetch_of_lt hlt] at h
    simp at h
  · rw [fetch_of_size_le (Nat.le_of_not_lt hlt)] at h
    exact Source.next_error h

/-- All that an execution can change. -/
theorem execute_same (op : Op) (m : Machine) :
    (m.execute op).machine = { m with
      input := (m.execute op).machine.input
      sink := (m.execute op).machine.sink
      tape := (m.execute op).machine.tape
      recording := (m.execute op).machine.recording
      loops := (m.execute op).machine.loops
      mode := (m.execute op).machine.mode
      outputBytes := (m.execute op).machine.outputBytes } := by
  cases op with
  | increment | decrement => rfl
  | right | left =>
    simp only [execute, moveCursor]
    split <;> rfl
  | input =>
    simp only [execute, readInput]
    split <;> rfl
  | output =>
    simp only [execute, writeOutput]
    split <;> rfl
  | loopOpen =>
    rw [execute, enterLoop_same]
  | loopClose =>
    rw [execute, closeLoop_same]

theorem source_execute (op : Op) (m : Machine) : (m.execute op).machine.source = m.source := by
  rw [execute_same]

theorem source_step (h : m.mode ≠ .halted) : m.step.machine.source = m.fetch.2.source := by
  unfold step executeNext skipNext
  rcases m.fetch with ⟨_ | _ | op, m'⟩
  all_goals cases hmode : m.mode with
    | halted => exact absurd hmode h
    | running => first | rfl | exact source_execute op _
    | skipping depth => rfl

/-- Only the end of the program counts unclosed loops. -/
theorem unclosedLoops_step (h : m.step.machine.mode ≠ .halted) :
    m.step.machine.unclosedLoops = m.unclosedLoops := by
  have hfetch : m.fetch.2.unclosedLoops = m.unclosedLoops := by rw [fetch_same]
  unfold step executeNext skipNext at h ⊢
  cases hmode : m.mode with
  | halted => rfl
  | running =>
    rcases hresult : m.fetch with ⟨fault | _ | op, m'⟩
    all_goals
      simp only [hmode, hresult] at h
      rw [hresult] at hfetch
    · exact absurd rfl h
    · exact absurd rfl h
    · rw [← hfetch]
      dsimp only
      rw [execute_same]
  | skipping depth =>
    rcases hresult : m.fetch with ⟨fault | _ | op, m'⟩
    all_goals
      simp only [hmode, hresult] at h
      rw [hresult] at hfetch
    · exact absurd rfl h
    · exact absurd rfl h
    · exact hfetch

end TapeMachine.Machine
