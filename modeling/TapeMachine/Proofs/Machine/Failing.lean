import TapeMachine.Proofs.Machine.Output
import TapeMachine.Proofs.Machine.Partial
import TapeMachine.Proofs.Machine.Representation

/-!
# Steps that fail

A step that fails leaves the tape, the loops and the bytes counted as they were. A failed read of
the program leaves the recording alone as well; every other fault is that of an operation that has
been fetched and counted. The sink has taken one byte more only if it failed to flush it. A machine
that has failed is halted, and whatever is called on it, it stays as it is.
-/

namespace TapeMachine

open Listing

namespace Sink

/-- The sink takes the byte and then fails to pass it on. -/
def FlushFails (value : UInt8) (s : Sink) : Prop :=
  (s.write value).1 = .ok () ∧ ∃ error, (s.write value).2.flush.1 = .error error

variable {value : UInt8} {s : Sink} {fault : Fault}

theorem bytes_write (value : UInt8) (s : Sink) : (s.write value).2.bytes
    = if (s.write value).1 = .ok () then s.bytes.push value else s.bytes := by
  unfold write
  rcases deliver s.writes s.writeCalls with ⟨_ | _, _, _⟩ <;> simp

theorem bytes_put_of_flushFails (h : s.FlushFails value) :
    (s.put value).2.bytes = s.bytes.push value := by
  obtain ⟨htaken, error, hfailed⟩ := h
  have hbytes := bytes_write value s
  rw [if_pos htaken] at hbytes
  unfold put
  rcases hwritten : s.write value with ⟨_ | _, written⟩
  all_goals rw [hwritten] at htaken hfailed hbytes
  · simp at htaken
  · have hflushed := bytes_flush written
    rw [hbytes] at hflushed
    dsimp only at hfailed ⊢
    rcases hflush : written.flush with ⟨_ | _, flushed⟩
    all_goals rw [hflush] at hfailed hflushed
    · exact hflushed
    · simp at hfailed

theorem bytes_put_of_not_flushFails (h : ¬s.FlushFails value)
    (hfault : (s.put value).1 = .error fault) : (s.put value).2.bytes = s.bytes := by
  have hbytes := bytes_write value s
  unfold put at hfault ⊢
  rcases hwritten : s.write value with ⟨_ | _, written⟩
  all_goals rw [hwritten] at hfault hbytes
  · simpa using hbytes
  · -- The byte was taken and nothing fails behind it, so there is no fault.
    rcases hflush : written.flush with ⟨error | _, flushed⟩
    · refine absurd ⟨?_, error, ?_⟩ h
      · rw [hwritten]
      · rw [hwritten, hflush]
    · simp [hflush] at hfault

end Sink

namespace Source

variable {s : Source} {error : IoError}

/-- A source that reports a failure has passed over comments and interruptions up to it. -/
theorem skips_of_failure (h : s.next.1 = .error (.unavailable .program error)) :
    ∃ skipped, Silent skipped ∧ s.events = skipped ++ .failure error :: s.next.2.events ∧
      s.next.2.offset = s.offset + (delivered skipped).length := by
  have hgoes : s.exhausted = false := by
    by_contra hover
    rw [next_of_exhausted (by simpa using hover)] at h
    simp at h
  have hnext : s.next = scan s.events s.offset := by
    rw [next, hgoes]
    rfl
  obtain ⟨skipped, rest, hsilent, hevents, hends⟩ := scan_cases s.events s.offset
  refine ⟨skipped, hsilent, ?_⟩
  rw [hnext] at h ⊢
  generalize scan s.events s.offset = answer at h hends ⊢
  cases hends with
  | op op left | endOfStream left | noAnswer => simp at h
  | failure cause left hrest =>
    obtain rfl : cause = error := by simpa using h
    exact ⟨by rw [hevents, hrest], rfl⟩

end Source

namespace Recording

/-- How a recording advances over an operation that is fetched. -/
inductive Takes (op : Op) : Recording → Recording → Prop where
  /-- Outside every loop nothing is recorded. -/
  | outside : Takes op .empty .empty
  | replayed {r : Recording} (hget : r.ops[r.cursor]? = some op) :
    Takes op r { r with cursor := r.cursor + 1 }
  | recorded {r : Recording} (hactive : r.ops ≠ #[]) (hend : r.cursor = r.ops.size) :
    Takes op r ⟨r.ops.push op, r.cursor + 1⟩

end Recording

namespace Machine

variable {m : Machine} {op : Op} {fault : Fault} {before : List Op} {depth : Nat}

theorem Represents.takes (h : Represents before depth m) (hfetch : m.fetch.1 = .ok (some op)) :
    m.recording.Takes op m.fetch.2.recording := by
  by_cases hlt : m.recording.cursor < m.recording.ops.size
  · rw [fetch_of_lt hlt] at hfetch ⊢
    refine .replayed ?_
    rw [Array.getElem?_eq_getElem hlt]
    exact Except.ok.inj hfetch
  · have hend : m.recording.cursor = m.recording.ops.size :=
      Nat.le_antisymm h.cursor_le (Nat.le_of_not_lt hlt)
    rw [fetch_of_size_le (Nat.le_of_not_lt hlt)] at hfetch ⊢
    dsimp only at hfetch ⊢
    rw [hfetch, Recording.noting]
    by_cases hactive : m.recording.ops = #[]
    · have hempty : m.recording = .empty := by
        rcases hm : m.recording with ⟨ops, cursor⟩
        rw [hm] at hactive hend
        simp only at hactive hend
        rw [hactive, hend, hactive]
        rfl
      rw [hempty]
      exact .outside
    · rw [if_pos (by simpa [Recording.isActive] using hactive), ← hend]
      exact .recorded hactive hend

/-- A failing operation leaves everything but the input and the sink. It is not for want of a
program that it fails. -/
structure Breaks (m : Machine) (fault : Fault) (s : Step) : Prop where
  machine : s.machine = { m with
    mode := .halted
    input := s.machine.input
    sink := s.machine.sink }
  executed : ∀ error, fault ≠ .unavailable .program error

theorem moveCursor_breaks {direction : Direction}
    (h : (m.moveCursor direction).fault = some fault) :
    m.Breaks fault (m.moveCursor direction) := by
  rcases hmove : m.tape.move direction with ⟨error | _, tape⟩
  · have hrefusal := Tape.move_error (congrArg Prod.fst hmove)
    rw [hmove, Prod.mk.injEq, Except.error.injEq] at hrefusal
    obtain ⟨rfl, rfl⟩ := hrefusal
    rw [moveCursor, hmove] at h ⊢
    obtain rfl := Option.some.inj h
    exact ⟨rfl, by simp [Tape.refusal]⟩
  · rw [moveCursor, hmove] at h
    simp [Step.quiet] at h

theorem readInput_breaks (h : m.readInput.fault = some fault) : m.Breaks fault m.readInput := by
  rcases hread : readByte m.input with ⟨error | value, input⟩
  · rw [readInput, hread] at h ⊢
    obtain rfl := Option.some.inj h
    exact ⟨rfl, by simp⟩
  · rw [readInput, hread] at h
    simp [Step.quiet] at h

theorem writeOutput_breaks (h : m.writeOutput.fault = some fault) :
    m.Breaks fault m.writeOutput := by
  rcases hput : m.sink.put m.tape.current with ⟨refusal | _, sink⟩
  · obtain ⟨error, rfl⟩ := put_error (congrArg Prod.fst hput)
    rw [writeOutput, hput] at h ⊢
    obtain rfl := Option.some.inj h
    exact ⟨rfl, by simp⟩
  · rw [writeOutput, hput] at h
    simp [Step.quiet] at h

theorem fault_closeLoop (h : m.loops.positions ≠ #[]) : m.closeLoop.fault = none := by
  rcases List.eq_nil_or_concat m.loops.positions.toList with hnil | ⟨below, position, hsplit⟩
  · exact absurd (by simpa using hnil) h
  · rw [List.concat_eq_append] at hsplit
    rw [closeLoop, LoopStack.pop_eq_ok hsplit]
    dsimp only
    split
    · rfl
    · split <;> rfl

theorem closeLoop_breaks (h : m.closeLoop.fault = some fault) : m.Breaks fault m.closeLoop := by
  by_cases hloops : m.loops.positions = #[]
  · rw [closeLoop_of_empty hloops] at h ⊢
    obtain rfl := Option.some.inj h
    exact ⟨rfl, by simp⟩
  · rw [fault_closeLoop hloops] at h
    simp at h

theorem execute_breaks (h : (m.execute op).fault = some fault) :
    m.Breaks fault (m.execute op) := by
  cases op with
  | increment | decrement => simp [execute, Step.quiet] at h
  | right | left => exact moveCursor_breaks h
  | input => exact readInput_breaks h
  | output => exact writeOutput_breaks h
  | loopOpen => simp [execute, enterLoop_fault] at h
  | loopClose => exact closeLoop_breaks h

/-- The operations that can fail, each with the fault that it then has. -/
inductive CanFail (m : Machine) : Op → Fault → Prop where
  | right : CanFail m .right (m.tape.refusal .right)
  | left : CanFail m .left (m.tape.refusal .left)
  | input (error : IoError) : CanFail m .input (.unavailable .input error)
  | output (error : IoError) : CanFail m .output (.sinkUnavailable error)
  | loopClose : CanFail m .loopClose (.unmatchedClose (m.source.offset - 1))

theorem fault_moveCursor {direction : Direction}
    (h : (m.moveCursor direction).fault = some fault) : m.tape.refusal direction = fault := by
  rcases hmove : m.tape.move direction with ⟨error | _, tape⟩
  · have hrefusal := Tape.move_error (congrArg Prod.fst hmove)
    rw [hmove, Prod.mk.injEq, Except.error.injEq] at hrefusal
    rw [moveCursor, hmove] at h
    exact hrefusal.1.symm.trans (Option.some.inj h)
  · rw [moveCursor, hmove] at h
    simp [Step.quiet] at h

theorem put_of_fault (h : m.writeOutput.fault = some fault) :
    (m.sink.put m.tape.current).1 = .error fault := by
  unfold writeOutput at h
  rcases hput : m.sink.put m.tape.current with ⟨refusal | _, sink⟩
  all_goals rw [hput] at h
  · exact congrArg Except.error (Option.some.inj h)
  · simp [Step.quiet] at h

theorem canFail_of_fault (h : (m.execute op).fault = some fault) : m.CanFail op fault := by
  cases op with
  | increment | decrement => simp [execute, Step.quiet] at h
  | right => exact fault_moveCursor h ▸ .right
  | left => exact fault_moveCursor h ▸ .left
  | input =>
    rw [execute, readInput] at h
    rcases hread : readByte m.input with ⟨error | value, input⟩
    all_goals rw [hread] at h
    · obtain rfl := Option.some.inj h
      exact .input error
    · simp [Step.quiet] at h
  | output =>
    obtain ⟨error, rfl⟩ := put_error (put_of_fault h)
    exact .output error
  | loopOpen => simp [execute, enterLoop_fault] at h
  | loopClose =>
    by_cases hloops : m.loops.positions = #[]
    · rw [execute, closeLoop_of_empty hloops] at h
      obtain rfl := Option.some.inj h
      exact .loopClose
    · rw [execute, fault_closeLoop hloops] at h
      simp at h

/-- A step fails for want of a program, or in the execution of an operation. -/
theorem fault_cases (h : m.step.fault = some fault) :
    (m.fetch.1 = .error fault ∧ m.step.machine = { m.fetch.2 with mode := .halted }) ∨
      ∃ op, m.mode = .running ∧ m.fetch.1 = .ok (some op) ∧
        ({ m.fetch.2 with steps := m.fetch.2.steps + 1 }.execute op).fault = some fault ∧
        m.step.machine = ({ m.fetch.2 with steps := m.fetch.2.steps + 1 }.execute op).machine := by
  cases hmode : m.mode with
  | halted =>
    rw [step_of_halted hmode] at h
    simp [Step.quiet] at h
  | running =>
    simp only [step, hmode, executeNext] at h ⊢
    rcases hfetch : m.fetch with ⟨refusal | _ | op, m'⟩
    all_goals rw [hfetch] at h
    · obtain rfl := Option.some.inj h
      exact Or.inl ⟨rfl, rfl⟩
    · simp [Step.ended] at h
    · exact Or.inr ⟨op, trivial, rfl, h, rfl⟩
  | skipping depth =>
    simp only [step, hmode, skipNext] at h ⊢
    rcases hfetch : m.fetch with ⟨refusal | _ | op, m'⟩
    all_goals rw [hfetch] at h
    · obtain rfl := Option.some.inj h
      exact Or.inl ⟨rfl, rfl⟩
    · simp [Step.ended] at h
    · simp [Step.quiet] at h

/-- The step hands the current cell to a sink that takes it and fails to pass it on. -/
def FlushFails (m : Machine) : Prop :=
  m.mode = .running ∧ m.fetch.1 = .ok (some .output) ∧ m.sink.FlushFails m.tape.current

/-- What a failing step changes, and what it does not. -/
structure FailsAtomically (fault : Fault) (m m' : Machine) : Prop where
  mode : m'.mode = .halted
  tape : m'.tape = m.tape
  loops : m'.loops = m.loops
  outputBytes : m'.outputBytes = m.outputBytes
  unclosedLoops : m'.unclosedLoops = m.unclosedLoops
  bytes : ¬m.FlushFails → m'.sink.bytes = m.sink.bytes
  bytes_of_flushFails : m.FlushFails → m'.sink.bytes = m.sink.bytes.push m.tape.current
  /-- Without a program only comments are consumed. -/
  unread : ∀ error, fault = .unavailable .program error →
    m'.steps = m.steps ∧ m'.recording = m.recording ∧
      ∃ skipped, Silent skipped ∧ m.source.events = skipped ++ .failure error :: m'.source.events ∧
        m'.source.offset = m.source.offset + (delivered skipped).length
  /-- Any other fault is that of an operation that has been fetched and counted. -/
  executed : (∀ error, fault ≠ .unavailable .program error) →
    m'.steps = m.steps + 1 ∧ ∃ op, m.fetch.1 = .ok (some op) ∧ m.recording.Takes op m'.recording

/-- A failing step adds to the bytes of the sink only if it is the flush that failed. -/
theorem bytes_of_not_flushFails (h : m.step.fault = some fault) (hflush : ¬m.FlushFails) :
    m.step.machine.sink.bytes = m.sink.bytes := by
  rw [sink_step]
  split
  · next houtput =>
    have hsink : m.fetch.2.sink = m.sink := by rw [fetch_same]
    have htape : m.fetch.2.tape = m.tape := by rw [fetch_same]
    rcases fault_cases h with ⟨hfetch, -⟩ | ⟨op, hmode, hfetch, hexecute, -⟩
    · rw [houtput.2] at hfetch
      simp at hfetch
    · obtain rfl : op = .output := by simpa [houtput.2] using hfetch.symm
      have hput := put_of_fault hexecute
      rw [hsink, htape] at hput
      exact Sink.bytes_put_of_not_flushFails (fun hfails => hflush ⟨hmode, hfetch, hfails⟩) hput
  · rfl

/-- A step without a program. -/
theorem failsAtomically_of_fetch (hfetch : m.fetch.1 = .error fault)
    (hmachine : m.step.machine = { m.fetch.2 with mode := .halted }) :
    FailsAtomically fault m m.step.machine := by
  have hlt : ¬m.recording.cursor < m.recording.ops.size := by
    intro hlt
    rw [fetch_of_lt hlt] at hfetch
    simp at hfetch
  obtain ⟨error, rfl⟩ := fetch_error hfetch
  have hother : ¬m.FlushFails := by
    rintro ⟨-, houtput, -⟩
    rw [houtput] at hfetch
    simp at hfetch
  rw [fetch_of_size_le (Nat.le_of_not_lt hlt)] at hfetch hmachine
  dsimp only at hfetch hmachine
  rw [hmachine, hfetch]
  exact {
    mode := rfl
    tape := rfl
    loops := rfl
    outputBytes := rfl
    unclosedLoops := rfl
    bytes := fun _ => rfl
    bytes_of_flushFails := fun hfails => absurd hfails hother
    unread := fun cause hcause => by
      obtain rfl : error = cause := by simpa using hcause
      exact ⟨rfl, rfl, Source.skips_of_failure hfetch⟩
    executed := fun hexecuted => absurd rfl (hexecuted error) }

theorem Represents.failsAtomically (h : Represents before depth m)
    (hfault : m.step.fault = some fault) : FailsAtomically fault m m.step.machine := by
  rcases fault_cases hfault with ⟨hfetch, hmachine⟩ | ⟨op, hmode, hfetch, hexecute, hmachine⟩
  · exact failsAtomically_of_fetch hfetch hmachine
  · have htakes := h.takes hfetch
    have hbreaks := execute_breaks hexecute
    have hleft := hbreaks.machine
    rw [← hmachine] at hleft
    have hsame := fetch_same m
    refine ⟨mode_of_fault hfault, ?_, ?_, ?_, ?_, bytes_of_not_flushFails hfault, fun hflush => ?_,
      fun error herror => absurd herror (hbreaks.executed error), fun _ => ⟨?_, op, hfetch, ?_⟩⟩
    · rw [hleft, hsame]
    · rw [hleft, hsame]
    · rw [hleft, hsame]
    · rw [hleft, hsame]
    · rw [sink_step, if_pos ⟨hflush.1, hflush.2.1⟩]
      exact Sink.bytes_put_of_flushFails hflush.2.2
    · rw [hleft, hsame]
    · rw [hleft]
      exact htakes

/-- The fault of a call, if it fails. -/
def faultOf (m : Machine) : Call → Option Fault
  | .step => m.step.fault
  | .run limit => (m.advance limit #[]).fault

/-- Whatever is called, every call succeeds and the machine stays as it is. -/
structure Rests (m : Machine) : Prop where
  perform : ∀ calls, m.perform calls = m
  fault : ∀ call, m.faultOf call = none
  run : ∀ fuel, m.run fuel = some ⟨m, none, #[m.closing]⟩

theorem advance_of_halted (h : m.mode = .halted) (limit : Nat) (log : Array Event) :
    m.advance limit log = ⟨m, none, log⟩ := by
  cases limit with
  | zero => rfl
  | succ limit =>
    rw [advance, step_of_halted h]
    simp [Step.quiet, h]

theorem rests_of_halted (h : m.mode = .halted) : Rests m := by
  have hadvance := advance_of_halted h
  refine ⟨fun calls => ?_, fun call => ?_, fun fuel => ?_⟩
  · induction calls with
    | nil => rfl
    | cons call calls ih =>
      have hanswer : m.answer call = m := by
        cases call with
        | step => rw [answer, step_of_halted h]; rfl
        | run limit => rw [answer, hadvance]
      rw [perform, List.foldl_cons, hanswer]
      exact ih
  · cases call with
    | step => rw [faultOf, step_of_halted h]; rfl
    | run limit => rw [faultOf, hadvance]
  · rw [run, hadvance]
    simp [h]

/-- A step that fails changes nothing beyond the reads that it has made, the operation that it has
fetched and a byte that the sink took but did not pass on; and it is the last one. -/
theorem failsAtomically_of_fault (config : Config) (program input : List ReadEvent) (sink : Sink)
    {count : Nat} (h : ((initial config program input sink).after count).step.fault = some fault) :
    FailsAtomically fault ((initial config program input sink).after count)
        ((initial config program input sink).after count).step.machine ∧
      Rests ((initial config program input sink).after count).step.machine := by
  obtain ⟨_, _, _, hfollows⟩ := followsAfter_of_mode config program input sink count
    (mode_ne_halted_of_fault h)
  exact ⟨hfollows.toRepresents.failsAtomically h, rests_of_halted (mode_of_fault h)⟩

/-- The flush of the second pass through a loop fails, in an operation that is replayed. -/
theorem failsAtomically_of_flush :
    ((initial { tapeSize := 3 } ([43, 43, 91, 46, 45, 93].map .byte) []
        (.ofReplies [] [.done, .failure ⟨"full"⟩])).after 7).step.fault
        = some (.sinkUnavailable ⟨"full"⟩) ∧
      FailsAtomically (.sinkUnavailable ⟨"full"⟩)
        ((initial { tapeSize := 3 } ([43, 43, 91, 46, 45, 93].map .byte) []
          (.ofReplies [] [.done, .failure ⟨"full"⟩])).after 7)
        ((initial { tapeSize := 3 } ([43, 43, 91, 46, 45, 93].map .byte) []
          (.ofReplies [] [.done, .failure ⟨"full"⟩])).after 7).step.machine :=
  ⟨by decide, (failsAtomically_of_fault { tapeSize := 3 } ([43, 43, 91, 46, 45, 93].map .byte) []
    (.ofReplies [] [.done, .failure ⟨"full"⟩]) (by decide)).1⟩

end Machine

end TapeMachine
