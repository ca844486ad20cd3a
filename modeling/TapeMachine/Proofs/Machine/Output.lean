import TapeMachine.Proofs.Machine.Frame

/-!
# What a step does to the sink

Only an output operation reaches the sink. The answers of the sink are consumed in order, like those
of the two streams, and a byte that is put out is added behind the others or not at all.
-/

namespace TapeMachine

namespace Sink

theorem deliver_suffix (writes : List WriteReply) (calls : Nat) :
    (deliver writes calls).2.1 <:+ writes := by
  induction writes generalizing calls with
  | nil => exact List.suffix_refl []
  | cons reply rest ih =>
    cases reply with
    | taken | refused | failure error => exact List.suffix_cons _ rest
    | interrupted => exact (ih (calls + 1)).trans (List.suffix_cons _ rest)

theorem writes_write (value : UInt8) (s : Sink) : (s.write value).2.writes <:+ s.writes := by
  have hdeliver := deliver_suffix s.writes s.writeCalls
  unfold write
  rcases hresult : deliver s.writes s.writeCalls with ⟨_ | _, writes, calls⟩
  all_goals
    rw [hresult] at hdeliver
    exact hdeliver

theorem writes_flush (s : Sink) : s.flush.2.writes = s.writes := by
  unfold flush
  rcases s.flushes.head? with _ | _ | _ <;> rfl

theorem writes_put (value : UInt8) (s : Sink) : (s.put value).2.writes <:+ s.writes := by
  have hwrite := writes_write value s
  unfold put
  rcases hresult : s.write value with ⟨_ | _, written⟩
  all_goals rw [hresult] at hwrite
  · exact hwrite
  · have hflush := writes_flush written
    dsimp only
    rcases hflushed : written.flush with ⟨_ | _, flushed⟩
    all_goals
      rw [hflushed] at hflush
      rw [← hflush] at hwrite
      exact hwrite

theorem isPrefix_bytes_write (value : UInt8) (s : Sink) :
    s.bytes.toList <+: (s.write value).2.bytes.toList := by
  unfold write
  rcases deliver s.writes s.writeCalls with ⟨_ | _, _, _⟩
  · exact List.prefix_rfl
  · simp

theorem bytes_flush (s : Sink) : s.flush.2.bytes = s.bytes := by
  unfold flush
  rcases s.flushes.head? with _ | _ | _ <;> rfl

theorem isPrefix_bytes_put (value : UInt8) (s : Sink) :
    s.bytes.toList <+: (s.put value).2.bytes.toList := by
  have hwrite := isPrefix_bytes_write value s
  unfold put
  rcases hwritten : s.write value with ⟨_ | _, written⟩
  all_goals rw [hwritten] at hwrite
  · exact hwrite
  · rw [← bytes_flush written] at hwrite
    dsimp only
    rcases hflushed : written.flush with ⟨_ | _, flushed⟩
    all_goals
      rw [hflushed] at hwrite
      exact hwrite

end Sink

namespace Machine

variable {m : Machine}

theorem sink_execute (op : Op) (m : Machine) :
    (m.execute op).machine.sink
      = if op = .output then (m.sink.put m.tape.current).2 else m.sink := by
  cases op with
  | increment | decrement => rfl
  | right | left =>
    simp only [execute, moveCursor]
    split <;> rfl
  | input =>
    simp only [execute, readInput]
    split <;> rfl
  | output =>
    simp only [execute, writeOutput]
    split <;> rfl
  | loopOpen =>
    rw [execute, enterLoop_same]
    rfl
  | loopClose =>
    rw [execute, closeLoop_same]
    rfl

/-- The sink is reached by a machine that is running and fetches an output operation. -/
theorem sink_step (m : Machine) : m.step.machine.sink =
    if m.mode = .running ∧ m.fetch.1 = .ok (some .output) then (m.sink.put m.tape.current).2
    else m.sink := by
  have hsink : m.fetch.2.sink = m.sink := by rw [fetch_same]
  have htape : m.fetch.2.tape = m.tape := by rw [fetch_same]
  unfold step executeNext skipNext
  cases hmode : m.mode with
  | halted => simp [Step.quiet]
  | skipping depth =>
    rw [if_neg (by simp)]
    rcases hfetch : m.fetch with ⟨_ | _ | op, m'⟩
    all_goals
      rw [hfetch] at hsink
      exact hsink
  | running =>
    rcases hfetch : m.fetch with ⟨_ | _ | op, m'⟩
    all_goals rw [hfetch] at hsink htape
    · simpa [Step.failed] using hsink
    · simpa [Step.ended] using hsink
    · dsimp only at hsink htape
      simp [sink_execute, hsink, htape]

/-- The answers of the sink that are left are the last ones. -/
theorem writes_step (m : Machine) : m.step.machine.sink.writes <:+ m.sink.writes := by
  rw [sink_step]
  split
  · exact Sink.writes_put m.tape.current m.sink
  · exact List.suffix_refl _

end Machine

end TapeMachine
