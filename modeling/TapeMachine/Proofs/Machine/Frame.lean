import TapeMachine.Proofs.Machine.Untouched
import TapeMachine.Proofs.Program.Reads

/-!
# What a step does not depend on

A frame puts further answers behind those that a machine has before it, and an earlier run behind
its counts and its output. A step that reads none of the further answers is the same inside the
frame: it leaves the same machine in the same frame and reports the same. Only the offset of an
unmatched bracket moves with the bytes that were consumed earlier.
-/

namespace TapeMachine

/-- Answers that come later, and what was counted and put out earlier. -/
structure Frame where
  program : List ReadEvent := []
  input : List ReadEvent := []
  offset : Nat := 0
  output : Array UInt8 := #[]
  writeCalls : Nat := 0
  flushCalls : Nat := 0
  steps : Nat := 0
  outputBytes : Nat := 0

/-- The fault with the offset of an unmatched bracket moved to another place. -/
def Fault.relocate (place : Nat → Nat) : Fault → Fault
  | unmatchedClose offset => unmatchedClose (place offset)
  | fault => fault

theorem Fault.relocate_of_ne (place : Nat → Nat) {fault : Fault}
    (h : ∀ offset, fault ≠ unmatchedClose offset) : fault.relocate place = fault := by
  cases fault with
  | unmatchedClose offset => exact absurd rfl (h offset)
  | outOfBounds | unavailable | sinkUnavailable | invalidConfig => rfl

def Source.framed (f : Frame) (s : Source) : Source :=
  { s with events := s.events ++ f.program, offset := f.offset + s.offset }

def Sink.framed (f : Frame) (s : Sink) : Sink :=
  { s with
    bytes := f.output ++ s.bytes
    writeCalls := f.writeCalls + s.writeCalls
    flushCalls := f.flushCalls + s.flushCalls }

def Machine.framed (f : Frame) (m : Machine) : Machine :=
  { m with
    source := m.source.framed f
    input := m.input ++ f.input
    sink := m.sink.framed f
    steps := f.steps + m.steps
    outputBytes := f.outputBytes + m.outputBytes }

def Step.framed (f : Frame) (s : Step) : Step :=
  ⟨s.machine.framed f, s.fault.map (Fault.relocate (f.offset + ·)), s.events⟩

theorem Source.next_framed {f : Frame} {s : Source}
    (h : f.program = [] ∨ s.reads ≤ s.events.length) :
    (s.framed f).next = (s.next.1, s.next.2.framed f) := by
  unfold next
  by_cases hexhausted : s.exhausted = true
  · have hframed : (s.framed f).exhausted = true := hexhausted
    rw [if_pos hframed, if_pos hexhausted]
  · have hframed : ¬(s.framed f).exhausted = true := hexhausted
    rw [reads, if_neg hexhausted] at h
    rw [if_neg hframed, if_neg hexhausted]
    exact scan_append f.offset s.offset h

namespace Sink

theorem deliver_add (earlier calls : Nat) (writes : List WriteReply) :
    deliver writes (earlier + calls) = ((deliver writes calls).1, (deliver writes calls).2.1,
      earlier + (deliver writes calls).2.2) := by
  induction writes generalizing calls with
  | nil => rfl
  | cons reply rest ih =>
    cases reply with
    | taken | refused | failure error => rfl
    | interrupted => exact ih (calls + 1)

theorem write_framed (f : Frame) (value : UInt8) (s : Sink) :
    (s.framed f).write value = ((s.write value).1, (s.write value).2.framed f) := by
  unfold write
  have hdeliver : deliver (s.framed f).writes (s.framed f).writeCalls = _ :=
    deliver_add f.writeCalls s.writeCalls s.writes
  rw [hdeliver]
  rcases deliver s.writes s.writeCalls with ⟨_ | _, writes, writeCalls⟩
  · rfl
  · simp [framed]

theorem flush_framed (f : Frame) (s : Sink) :
    (s.framed f).flush = (s.flush.1, s.flush.2.framed f) := by
  have hreplies : (s.framed f).flushes = s.flushes := rfl
  unfold flush
  rw [hreplies]
  rcases s.flushes.head? with _ | _ | error <;> rfl

theorem put_framed (f : Frame) (value : UInt8) (s : Sink) :
    (s.framed f).put value = ((s.put value).1, (s.put value).2.framed f) := by
  unfold put
  rw [write_framed]
  rcases s.write value with ⟨_ | _, written⟩
  · rfl
  · simp only [flush_framed]
    rcases written.flush with ⟨_ | _, flushed⟩ <;> rfl

end Sink

namespace Machine

/-- The number of program reads that the next step makes. -/
def programReads (m : Machine) : Nat :=
  if m.mode = .halted ∨ m.recording.cursor < m.recording.ops.size then 0 else m.source.reads

/-- The number of input reads that the next step makes. -/
def inputReads (m : Machine) : Nat :=
  if m.mode = .running ∧ m.fetch.1 = .ok (some .input) then
    readsUpTo ReadEvent.isInterrupted m.input
  else 0

variable {f : Frame} {m : Machine} {op : Op}

theorem framed_initial (config : Config) (known more heard further : List ReadEvent)
    (sink : Sink) : (initial config known heard sink).framed { program := more, input := further }
      = initial config (known ++ more) (heard ++ further) sink := by
  simp [framed, initial, Source.framed, Source.ofEvents, Sink.framed]

theorem fetch_framed
    (h : f.program = [] ∨ m.recording.cursor < m.recording.ops.size ∨
      m.source.reads ≤ m.source.events.length) :
    (m.framed f).fetch = (m.fetch.1, m.fetch.2.framed f) := by
  by_cases hlt : m.recording.cursor < m.recording.ops.size
  · have hframed : (m.framed f).recording.cursor < (m.framed f).recording.ops.size := hlt
    rw [fetch_of_lt hlt, fetch_of_lt hframed]
    rfl
  · have hle := Nat.le_of_not_lt hlt
    have hframed : (m.framed f).recording.ops.size ≤ (m.framed f).recording.cursor := hle
    have hnext : (m.framed f).source.next = (m.source.next.1, m.source.next.2.framed f) :=
      Source.next_framed (h.imp_right fun hor => hor.resolve_left hlt)
    rw [fetch_of_size_le hle, fetch_of_size_le hframed, hnext]
    rfl

theorem fetch_framed_of_reads (hgoes : m.mode ≠ .halted)
    (h : f.program = [] ∨ m.programReads ≤ m.source.events.length) :
    (m.framed f).fetch = (m.fetch.1, m.fetch.2.framed f) := by
  refine fetch_framed (h.imp_right fun hle => ?_)
  by_cases hlt : m.recording.cursor < m.recording.ops.size
  · exact Or.inl hlt
  · rw [programReads, if_neg (not_or.mpr ⟨hgoes, hlt⟩)] at hle
    exact Or.inr hle

theorem framed_failed {fault : Fault} (h : ∀ offset, fault ≠ .unmatchedClose offset) :
    (Step.failed fault m).framed f = .failed fault (m.framed f) := by
  simp only [Step.framed, Step.failed, Option.map_some, Fault.relocate_of_ne _ h]
  rfl

theorem moveCursor_framed (direction : Direction) :
    (m.framed f).moveCursor direction = (m.moveCursor direction).framed f := by
  have htape : (m.framed f).tape = m.tape := rfl
  rcases hmove : m.tape.move direction with ⟨fault | _, tape⟩
  · have hrefusal := Tape.move_error (congrArg Prod.fst hmove)
    rw [hmove, Prod.mk.injEq, Except.error.injEq] at hrefusal
    have hother : ∀ offset, fault ≠ .unmatchedClose offset := by
      simp [hrefusal.1, Tape.refusal]
    simp only [moveCursor, htape, hmove]
    exact (framed_failed (m := { m with tape := tape }) hother).symm
  · simp only [moveCursor, htape, hmove]
    rfl

theorem readInput_framed
    (h : f.input = [] ∨ readsUpTo ReadEvent.isInterrupted m.input ≤ m.input.length) :
    (m.framed f).readInput = m.readInput.framed f := by
  have hread : readByte (m.framed f).input = _ := readByte_append h
  unfold readInput
  rw [hread]
  rcases readByte m.input with ⟨_ | _, input⟩ <;> rfl

theorem writeOutput_framed : (m.framed f).writeOutput = m.writeOutput.framed f := by
  have hframed : (m.framed f).sink.put (m.framed f).tape.current = _ :=
    Sink.put_framed f m.tape.current m.sink
  rcases hput : m.sink.put m.tape.current with ⟨fault | _, sink⟩
  · obtain ⟨error, rfl⟩ := put_error (congrArg Prod.fst hput)
    have hother : ∀ offset, Fault.sinkUnavailable error ≠ .unmatchedClose offset := by simp
    simp only [writeOutput, hframed, hput]
    exact (framed_failed (m := { m with sink := sink }) hother).symm
  · simp only [writeOutput, hframed, hput]
    rfl

theorem enterLoop_framed : (m.framed f).enterLoop = m.enterLoop.framed f := by
  unfold enterLoop
  have htape : (m.framed f).tape = m.tape := rfl
  rw [htape]
  split <;> rfl

/-- An unmatched bracket has been consumed, so its offset can be counted from an earlier run. -/
theorem closeLoop_framed (h : f.offset = 0 ∨ 0 < m.source.offset) :
    (m.framed f).closeLoop = m.closeLoop.framed f := by
  have htape : (m.framed f).tape = m.tape := rfl
  have hloops : (m.framed f).loops = m.loops := rfl
  have hoffset : (m.framed f).source.offset - 1 = f.offset + (m.source.offset - 1) := by
    show f.offset + m.source.offset - 1 = f.offset + (m.source.offset - 1)
    omega
  unfold closeLoop
  rw [hloops]
  rcases m.loops.pop with ⟨_ | position, loops⟩
  · show Step.failed (.unmatchedClose ((m.framed f).source.offset - 1)) _ = _
    rw [hoffset]
    rfl
  · dsimp only
    rw [htape]
    split
    · rfl
    · split <;> rfl

theorem execute_framed (h : f.offset = 0 ∨ 0 < m.source.offset)
    (hinput : op = .input →
      f.input = [] ∨ readsUpTo ReadEvent.isInterrupted m.input ≤ m.input.length) :
    (m.framed f).execute op = (m.execute op).framed f := by
  cases op with
  | increment | decrement => rfl
  | right => exact moveCursor_framed .right
  | left => exact moveCursor_framed .left
  | input => exact readInput_framed (hinput rfl)
  | output => exact writeOutput_framed
  | loopOpen => exact enterLoop_framed
  | loopClose => exact closeLoop_framed h

end Machine

/-- A step that reads none of the later answers, and that has consumed what it fetches. -/
structure Frame.Fits (f : Frame) (m : Machine) : Prop where
  program : f.program = [] ∨ m.programReads ≤ m.source.events.length
  input : f.input = [] ∨ m.inputReads ≤ m.input.length
  consumed : f.offset = 0 ∨
    (m.mode = .running → ∀ op, m.fetch.1 = .ok (some op) → 0 < m.fetch.2.source.offset)

namespace Frame

open Machine

variable {f : Frame} {m : Machine}

theorem Fits.executeNext (h : f.Fits m) (hmode : m.mode = .running) :
    (m.framed f).executeNext = m.executeNext.framed f := by
  have hframed := fetch_framed_of_reads (by simp [hmode]) h.program
  have hinput := congrArg Machine.input (fetch_same m)
  have hconsumed := h.consumed
  rcases hfetch : m.fetch with ⟨fault | _ | op, m'⟩
  · obtain ⟨error, rfl⟩ := fetch_error (congrArg Prod.fst hfetch)
    have hother : ∀ offset, Fault.unavailable .program error ≠ .unmatchedClose offset := by simp
    simp only [Machine.executeNext, hframed, hfetch]
    exact (framed_failed hother).symm
  · simp only [Machine.executeNext, hframed, hfetch]
    rfl
  · rw [hfetch] at hinput hconsumed
    have hexecute : ({ m' with steps := m'.steps + 1 }.framed f).execute op = _ :=
      execute_framed (hconsumed.imp_right fun hpos => hpos hmode op rfl) fun hop =>
        h.input.imp_right fun hle => by
          rw [inputReads, if_pos ⟨hmode, by rw [hfetch, hop]⟩] at hle
          rwa [← hinput] at hle
    simp only [Machine.executeNext, hframed, hfetch]
    change { ({ m' with steps := m'.steps + 1 }.framed f).execute op with
      events := m'.dispatched op :: (({ m' with steps := m'.steps + 1 }.framed f).execute op).events }
        = _
    rw [hexecute]
    rfl

theorem Fits.skipNext (h : f.Fits m) (hgoes : m.mode ≠ .halted) (depth : Nat) :
    (m.framed f).skipNext depth = (m.skipNext depth).framed f := by
  have hframed := fetch_framed_of_reads hgoes h.program
  rcases hfetch : m.fetch with ⟨fault | _ | op, m'⟩
  · obtain ⟨error, rfl⟩ := fetch_error (congrArg Prod.fst hfetch)
    have hother : ∀ offset, Fault.unavailable .program error ≠ .unmatchedClose offset := by simp
    simp only [Machine.skipNext, hframed, hfetch]
    exact (framed_failed hother).symm
  · simp only [Machine.skipNext, hframed, hfetch]
    rfl
  · simp only [Machine.skipNext, hframed, hfetch]
    rfl

/-- A step that fits into a frame is the same in the frame. -/
theorem Fits.step (h : f.Fits m) : (m.framed f).step = m.step.framed f := by
  have hframed : (m.framed f).mode = m.mode := rfl
  cases hmode : m.mode with
  | halted =>
    rw [step_of_halted hmode, step_of_halted (hframed.trans hmode)]
    rfl
  | running =>
    simp only [Machine.step, hframed, hmode]
    exact h.executeNext hmode
  | skipping depth =>
    simp only [Machine.step, hframed, hmode]
    exact h.skipNext (by simp [hmode]) depth

/-- As long as every step fits into a frame, the run in the frame is the same. -/
theorem after_framed {count : Nat} (h : ∀ made < count, f.Fits (m.after made)) :
    (m.framed f).after count = (m.after count).framed f := by
  induction count with
  | zero => rfl
  | succ count ih =>
    have hbefore := ih fun made hlt => h made (Nat.lt_succ_of_lt hlt)
    rw [after_succ_eq_step, after_succ_eq_step, hbefore, (h count (Nat.lt_succ_self count)).step]
    rfl

end Frame

end TapeMachine
