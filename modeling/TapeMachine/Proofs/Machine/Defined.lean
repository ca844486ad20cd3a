import TapeMachine.Proofs.Machine.Partial
import TapeMachine.Proofs.Machine.Representation

/-!
# No partial operation fails

Whatever its program, its input and its sink answer, a machine that was started meets every need of
its partial operations. The cursor is on the tape because no move takes it off, and all the other
needs follow from the program that the machine follows.
-/

namespace TapeMachine.Machine

open Brackets Listing

variable {program read : List ReadEvent} {before front : List Op} {op : Op} {depth : Nat}
  {m m' : Machine}

theorem tape_fetch (m : Machine) : m.fetch.2.tape = m.tape := by
  unfold fetch
  split <;> rfl

theorem inBounds_moveCursor (direction : Direction) (h : m.tape.InBounds) :
    (m.moveCursor direction).machine.tape.InBounds := by
  have htape : (m.moveCursor direction).machine.tape = (m.tape.move direction).2 := by
    unfold moveCursor
    dsimp only
    split <;> rfl
  rw [htape]
  exact Tape.inBounds_move direction h

theorem inBounds_readInput (h : m.tape.InBounds) : m.readInput.machine.tape.InBounds := by
  unfold readInput
  dsimp only
  split
  · exact Tape.inBounds_set.mpr h
  · exact h

theorem tape_writeOutput (m : Machine) : m.writeOutput.machine.tape = m.tape := by
  unfold writeOutput
  dsimp only
  split <;> rfl

theorem inBounds_execute (op : Op) (h : m.tape.InBounds) :
    (m.execute op).machine.tape.InBounds := by
  cases op with
  | increment | decrement => exact Tape.inBounds_set.mpr h
  | right => exact inBounds_moveCursor .right h
  | left => exact inBounds_moveCursor .left h
  | input => exact inBounds_readInput h
  | output =>
    change m.writeOutput.machine.tape.InBounds
    rwa [tape_writeOutput]
  | loopOpen =>
    change m.enterLoop.machine.tape.InBounds
    rwa [enterLoop_same]
  | loopClose =>
    change m.closeLoop.machine.tape.InBounds
    rwa [closeLoop_same]

/-- No step takes the cursor off the tape. -/
theorem inBounds_step (h : m.tape.InBounds) : m.step.machine.tape.InBounds := by
  have htape := tape_fetch m
  unfold step executeNext skipNext
  rcases hfetch : m.fetch with ⟨result, m'⟩
  rw [hfetch] at htape
  have h' : m'.tape.InBounds := by rwa [htape]
  cases m.mode with
  | halted => exact h
  | running =>
    match result with
    | .error fault => exact h'
    | .ok none => exact h'
    | .ok (some op) =>
      have hcounted : { m' with steps := m'.steps + 1 }.tape.InBounds := h'
      exact inBounds_execute op hcounted
  | skipping depth =>
    match result with
    | .error fault => exact h'
    | .ok none => exact h'
    | .ok (some op) => exact h'

theorem moveCursor?_eq (direction : Direction) (h : m.tape.InBounds) :
    m.moveCursor? direction = some (m.moveCursor direction) := by
  rw [moveCursor?, Tape.move?_eq direction h, moveCursor]
  rcases m.tape.move direction with ⟨result, tape⟩
  cases result <;> rfl

theorem readInput?_eq (h : m.tape.InBounds) : m.readInput? = some m.readInput := by
  rw [readInput?, readInput]
  rcases readByte m.input with ⟨result, input⟩
  cases result with
  | ok value =>
    dsimp only
    rw [Tape.write?_eq _ h]
    rfl
  | error error => rfl

theorem writeOutput?_eq (h : m.tape.InBounds) : m.writeOutput? = some m.writeOutput := by
  rw [writeOutput?, Tape.read?_eq h, writeOutput]
  dsimp only [Option.bind_eq_bind, Option.bind_some]
  rcases m.sink.put m.tape.current with ⟨result, sink⟩
  cases result <;> rfl

theorem enterLoop?_eq (h : m.tape.InBounds) : m.enterLoop? = some m.enterLoop := by
  rw [enterLoop?, Tape.read?_eq h, enterLoop]
  dsimp only [Option.bind_eq_bind, Option.bind_some]
  split
  · rfl
  · cases hactive : m.recording.isActive with
    | true => rfl
    | false =>
      rw [Recording.start?_eq .loopOpen hactive]
      rfl

/-- The innermost loop of a machine that has fetched a closing bracket starts with a recorded
bracket, to which it can go back. -/
theorem Fetched.closeLoop?_eq (hf : Fetched before front op 0 m) (h : m.tape.InBounds) :
    m.closeLoop? = some m.closeLoop := by
  rcases List.eq_nil_or_concat m.loops.positions.toList with hnil | ⟨below, position, hsplit⟩
  · have hpop := LoopStack.pop_eq_error (by simpa using hnil : m.loops.positions = #[])
    rw [closeLoop?, closeLoop, hpop]
  · rw [List.concat_eq_append] at hsplit
    have hget := (hf.opening hsplit).2.1
    rw [closeLoop?, closeLoop, LoopStack.pop_eq_ok hsplit]
    dsimp only
    rw [Tape.read?_eq h, Recording.rewind?, if_pos hget]
    dsimp only [Option.bind_eq_bind, Option.bind_some]
    split
    · rfl
    · split <;> rfl

theorem Fetched.execute?_eq (hf : Fetched before front op 0 m) (h : m.tape.InBounds) :
    m.execute? op = some (m.execute op) := by
  cases op with
  | increment => rw [execute?, Tape.increment?_eq h]; rfl
  | decrement => rw [execute?, Tape.decrement?_eq h]; rfl
  | right => exact moveCursor?_eq .right h
  | left => exact moveCursor?_eq .left h
  | input => exact readInput?_eq h
  | output => exact writeOutput?_eq h
  | loopOpen => exact enterLoop?_eq h
  | loopClose => exact hf.closeLoop?_eq h

theorem end?_eq (unclosed : Nat) (h : m.source.exhausted = true) :
    m.end? unclosed = some (.ended unclosed m) :=
  if_pos h

theorem Follows.executeNext?_eq (hf : Follows program read before 0 m) (h : m.tape.InBounds) :
    m.executeNext? = some m.executeNext := by
  rw [executeNext?, executeNext]
  rcases hf.fetch_cases with ⟨op, m', read', before', hfetch, hfetches⟩ |
    ⟨source, hfetch, hexhausted, -⟩ | ⟨error, m', hfetch, -⟩
  · have h' : m'.tape.InBounds := hfetches.tape ▸ h
    have hcounted := hfetches.fetched.counted (m'.steps + 1)
    rw [hfetch]
    dsimp only
    rw [Tape.read?_eq h', hcounted.execute?_eq h']
    rfl
  · rw [hfetch]
    exact end?_eq _ hexhausted
  · rw [hfetch]

theorem depthAfter?_succ (depth : Nat) (op : Op) :
    depthAfter? (depth + 1) op = some (depthAfter (depth + 1) op) := by
  cases op <;> rfl

theorem Follows.skipNext?_eq (hf : Follows program read before (depth + 1) m) :
    m.skipNext? (depth + 1) = some (m.skipNext (depth + 1)) := by
  rw [skipNext?, skipNext]
  rcases hf.fetch_cases with ⟨op, m', read', before', hfetch, -⟩ |
    ⟨source, hfetch, hexhausted, -⟩ | ⟨error, m', hfetch, -⟩
  · rw [hfetch]
    dsimp only
    rw [depthAfter?_succ]
    rfl
  · rw [hfetch]
    exact end?_eq _ hexhausted
  · rw [hfetch]

/-- A machine whose cursor is on its tape and which follows a program as long as it goes on. -/
structure Sound (program : List ReadEvent) (m : Machine) : Prop where
  inBounds : m.tape.InBounds
  follows : m.mode ≠ .halted → ∃ read before depth, Follows program read before depth m

theorem sound_initial {config : Config} (hconfig : config.Valid) (program input : List ReadEvent)
    (sink : Sink) : Sound program (initial config program input sink) where
  inBounds := Tape.inBounds_blank config.boundary hconfig
  follows _ := ⟨[], [], 0, follows_initial config program input sink⟩

theorem Sound.step (h : Sound program m) : Sound program m.step.machine := by
  refine ⟨inBounds_step h.inBounds, fun hgoes => ?_⟩
  obtain ⟨read, before, depth, hf⟩ := h.follows (mode_ne_halted_of_step hgoes)
  obtain ⟨read', before', depth', ha⟩ := hf.advances hgoes
  exact ⟨read', before', depth', ha.follows⟩

theorem Sound.step?_eq (h : Sound program m) : m.step? = some m.step := by
  by_cases hhalted : m.mode = .halted
  · rw [step_of_halted hhalted, step?, hhalted]
  obtain ⟨read, before, depth, hf⟩ := h.follows hhalted
  cases depth with
  | zero =>
    rw [step_of_running hf.mode, step?, hf.mode]
    exact hf.executeNext?_eq h.inBounds
  | succ depth =>
    rw [step_of_skipping hf.mode, step?, hf.mode]
    exact hf.skipNext?_eq

theorem Sound.advance (h : Sound program m) (limit : Nat) (log : Array Event) :
    m.advance? limit log = some (m.advance limit log) ∧
      Sound program (m.advance limit log).machine := by
  induction limit generalizing m log with
  | zero => exact ⟨rfl, h⟩
  | succ limit ih =>
    rw [advance?, h.step?_eq, Machine.advance]
    dsimp only [Option.bind_eq_bind, Option.bind_some]
    cases m.step.machine.mode with
    | halted => exact ⟨rfl, h.step⟩
    | running | skipping depth => exact ih h.step _

theorem Sound.answer (h : Sound program m) (call : Call) :
    m.answer? call = some (m.answer call) ∧ Sound program (m.answer call) := by
  cases call with
  | step =>
    refine ⟨?_, h.step⟩
    rw [answer?, h.step?_eq]
    rfl
  | run limit =>
    obtain ⟨hadvance, hsound⟩ := h.advance limit #[]
    refine ⟨?_, hsound⟩
    rw [answer?, hadvance]
    rfl

theorem Sound.perform (h : Sound program m) (calls : List Call) :
    m.perform? calls = some (m.perform calls) ∧ Sound program (m.perform calls) := by
  induction calls generalizing m with
  | nil => exact ⟨rfl, h⟩
  | cons call calls ih =>
    obtain ⟨hcall, hsound⟩ := h.answer call
    obtain ⟨hcalls, hfinal⟩ := ih hsound
    refine ⟨?_, hfinal⟩
    rw [perform?, List.foldlM_cons, hcall]
    exact hcalls

/-- Whatever is called on a machine that was started, none of its partial operations fails, its
cursor stays on the tape, and it skips only inside a bracket that is still to be closed. -/
theorem perform_defined {config : Config} {program input : List ReadEvent} {sink : Sink}
    {m : Machine} (h : start config program input sink = .ok m) (calls : List Call) :
    m.perform? calls = some (m.perform calls) ∧ (m.perform calls).tape.InBounds ∧
      ∀ depth, (m.perform calls).mode = .skipping depth → 1 ≤ depth := by
  obtain ⟨hconfig, rfl⟩ := start_eq_ok_iff.mp h
  obtain ⟨hdefined, hsound⟩ := (sound_initial hconfig program input sink).perform calls
  refine ⟨hdefined, hsound.inBounds, fun depth hmode => ?_⟩
  obtain ⟨read, before, skipped, hf⟩ := hsound.follows (by simp [hmode])
  obtain ⟨rfl, hpos⟩ := within_eq_skipping (hf.mode.symm.trans hmode)
  exact hpos

/-- A loop is entered, run through and left. -/
theorem perform_defined_loop :
    start { tapeSize := 3 } ([43, 91, 45, 93].map .byte) [] .accepting
        = .ok (initial { tapeSize := 3 } ([43, 91, 45, 93].map .byte) [] .accepting) ∧
      (initial { tapeSize := 3 } ([43, 91, 45, 93].map .byte) [] .accepting).perform?
          [.step, .run 2, .step, .run 9]
        = some ((initial { tapeSize := 3 } ([43, 91, 45, 93].map .byte) [] .accepting).perform
            [.step, .run 2, .step, .run 9]) :=
  ⟨rfl, (@perform_defined { tapeSize := 3 } ([43, 91, 45, 93].map .byte) [] .accepting _
    (start_eq_ok_iff.mpr ⟨Nat.succ_pos 2, rfl⟩) [.step, .run 2, .step, .run 9]).1⟩

end TapeMachine.Machine
