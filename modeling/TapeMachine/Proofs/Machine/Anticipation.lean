import TapeMachine.Proofs.Machine.Frame
import TapeMachine.Proofs.Machine.Representation

/-!
# Nothing is read ahead

What a machine does depends on the answers that it has read and on no others. Two machines whose
programs and inputs start alike do the same up to the first read that goes beyond what they share.
A step reads its program only when the recording is used up, and then no further than to the next
operation; it reads its input only for an input operation.
-/

namespace TapeMachine.Machine

open Listing

/-- The number of program reads made in so many steps. -/
def readsOfProgram : Nat → Machine → Nat
  | 0, _ => 0
  | count + 1, m => m.programReads + readsOfProgram count m.step.machine

/-- The number of input reads made in so many steps. -/
def readsOfInput : Nat → Machine → Nat
  | 0, _ => 0
  | count + 1, m => m.inputReads + readsOfInput count m.step.machine

variable {f : Frame} {m : Machine} {count : Nat}

theorem input_execute (op : Op) (m : Machine) :
    (m.execute op).machine.input = if op = .input then (readByte m.input).2 else m.input := by
  cases op with
  | increment | decrement => rfl
  | right | left =>
    show (m.moveCursor _).machine.input = m.input
    unfold moveCursor
    dsimp only
    split <;> rfl
  | input =>
    show m.readInput.machine.input = (readByte m.input).2
    unfold readInput
    dsimp only
    split <;> rfl
  | output =>
    show m.writeOutput.machine.input = m.input
    unfold writeOutput
    dsimp only
    split <;> rfl
  | loopOpen =>
    rw [execute, enterLoop_same]
    rfl
  | loopClose =>
    rw [execute, closeLoop_same]
    rfl

theorem events_fetch (h : m.mode ≠ .halted) :
    m.fetch.2.source.events = m.source.events.drop m.programReads := by
  by_cases hlt : m.recording.cursor < m.recording.ops.size
  · rw [fetch_of_lt hlt, programReads, if_pos (Or.inr hlt)]
    rfl
  · rw [fetch_of_size_le (Nat.le_of_not_lt hlt), programReads, if_neg (not_or.mpr ⟨h, hlt⟩)]
    exact Source.next_eq_drop m.source

/-- A step consumes as many answers of the program as it makes reads. -/
theorem events_step (m : Machine) :
    m.step.machine.source.events = m.source.events.drop m.programReads := by
  by_cases hhalted : m.mode = .halted
  · rw [step_of_halted hhalted, programReads, if_pos (Or.inl hhalted)]
    rfl
  · rw [source_step hhalted, events_fetch hhalted]

theorem input_executeNext (m : Machine) : m.executeNext.machine.input =
    if m.fetch.1 = .ok (some .input) then (readByte m.input).2 else m.input := by
  have hinput : m.fetch.2.input = m.input := by rw [fetch_same]
  unfold executeNext
  rcases hfetch : m.fetch with ⟨_ | _ | op, m'⟩
  all_goals rw [hfetch] at hinput
  · simpa [Step.failed] using hinput
  · simpa [Step.ended] using hinput
  · simpa [← hinput] using input_execute op { m' with steps := m'.steps + 1 }

theorem input_skipNext (depth : Nat) (m : Machine) :
    (m.skipNext depth).machine.input = m.input := by
  have hinput : m.fetch.2.input = m.input := by rw [fetch_same]
  unfold skipNext
  rcases hfetch : m.fetch with ⟨_ | _ | op, m'⟩
  all_goals
    rw [hfetch] at hinput
    exact hinput

/-- A step consumes as many answers of the input as it makes reads. -/
theorem input_step (m : Machine) : m.step.machine.input = m.input.drop m.inputReads := by
  unfold step inputReads
  cases hmode : m.mode with
  | halted => rfl
  | skipping depth => exact input_skipNext depth m
  | running =>
    rw [input_executeNext, readByte_eq_drop]
    by_cases hfetch : m.fetch.1 = .ok (some .input) <;> simp [hfetch]

/-- So many steps need no answers beyond those that the machine has. -/
structure Suffices (count : Nat) (m : Machine) : Prop where
  program : m.readsOfProgram count ≤ m.source.events.length
  input : m.readsOfInput count ≤ m.input.length

theorem suffices_succ : m.Suffices (count + 1) ↔
    m.programReads ≤ m.source.events.length ∧ m.inputReads ≤ m.input.length ∧
      m.step.machine.Suffices count := by
  have hevents := congrArg List.length (events_step m)
  have hinput := congrArg List.length (input_step m)
  rw [List.length_drop] at hevents hinput
  constructor
  · rintro ⟨hprogram, hheard⟩
    rw [readsOfProgram] at hprogram
    rw [readsOfInput] at hheard
    exact ⟨by omega, by omega, by omega, by omega⟩
  · rintro ⟨hprogram, hheard, hrest, hrest'⟩
    refine ⟨?_, ?_⟩
    · rw [readsOfProgram]
      omega
    · rw [readsOfInput]
      omega

theorem Suffices.after {made : Nat} (h : m.Suffices count) (hle : made ≤ count) :
    (m.after made).Suffices (count - made) := by
  induction made with
  | zero => exact h
  | succ made ih =>
    have hbefore := ih (Nat.le_of_succ_le hle)
    rw [show count - made = count - (made + 1) + 1 by omega] at hbefore
    rw [after_succ_eq_step]
    exact (suffices_succ.mp hbefore).2.2

theorem Suffices.fits {made : Nat} (h : m.Suffices count) (hoffset : f.offset = 0)
    (hlt : made < count) : f.Fits (m.after made) := by
  have hleft := h.after (Nat.le_of_lt hlt)
  rw [show count - made = count - (made + 1) + 1 by omega] at hleft
  obtain ⟨hprogram, hinput, -⟩ := suffices_succ.mp hleft
  exact ⟨Or.inr hprogram, Or.inr hinput, Or.inl hoffset⟩

/-- What the answers suffice for does not depend on what is put behind them. -/
theorem Suffices.framed {made : Nat} (h : m.Suffices count) (hoffset : f.offset = 0)
    (hle : made ≤ count) : (m.framed f).after made = (m.after made).framed f :=
  Frame.after_framed fun _ hlt => h.fits hoffset (Nat.lt_of_lt_of_le hlt hle)

theorem reads_framed {s : Source} (h : (s.framed f).reads ≤ s.events.length) :
    (s.framed f).reads = s.reads := by
  unfold Source.reads at h ⊢
  by_cases hexhausted : s.exhausted = true
  · have hframed : (s.framed f).exhausted = true := hexhausted
    rw [if_pos hframed, if_pos hexhausted]
  · have hframed : ¬(s.framed f).exhausted = true := hexhausted
    rw [if_neg hframed] at h ⊢
    rw [if_neg hexhausted]
    exact readsUpTo_append ((readsUpTo_append_le_iff f.program).mp h) f.program

theorem programReads_framed (h : (m.framed f).programReads ≤ m.source.events.length) :
    (m.framed f).programReads = m.programReads := by
  unfold programReads at h ⊢
  by_cases hnone : m.mode = .halted ∨ m.recording.cursor < m.recording.ops.size
  · have hframed : (m.framed f).mode = .halted ∨
        (m.framed f).recording.cursor < (m.framed f).recording.ops.size := hnone
    rw [if_pos hframed, if_pos hnone]
  · have hframed : ¬((m.framed f).mode = .halted ∨
        (m.framed f).recording.cursor < (m.framed f).recording.ops.size) := hnone
    rw [if_neg hframed] at h ⊢
    rw [if_neg hnone]
    exact reads_framed h

theorem inputReads_framed (hprogram : m.programReads ≤ m.source.events.length)
    (h : (m.framed f).inputReads ≤ m.input.length) : (m.framed f).inputReads = m.inputReads := by
  have hmode : (m.framed f).mode = m.mode := rfl
  unfold inputReads at h ⊢
  rw [hmode] at h ⊢
  by_cases hrunning : m.mode = .running
  · rw [fetch_framed_of_reads (by simp [hrunning]) (Or.inr hprogram)] at h ⊢
    by_cases hfetch : m.fetch.1 = .ok (some .input)
    · rw [if_pos ⟨hrunning, hfetch⟩] at h ⊢
      rw [if_pos ⟨hrunning, hfetch⟩]
      exact readsUpTo_append ((readsUpTo_append_le_iff f.input).mp h) f.input
    · rw [if_neg fun hboth => hfetch hboth.2, if_neg fun hboth => hfetch hboth.2]
  · rw [if_neg fun hboth => hrunning hboth.1, if_neg fun hboth => hrunning hboth.1]

/-- Reads that stay within the first answers are answered by them. -/
theorem suffices_of_framed (hoffset : f.offset = 0)
    (hprogram : (m.framed f).readsOfProgram count ≤ m.source.events.length)
    (hinput : (m.framed f).readsOfInput count ≤ m.input.length) : m.Suffices count := by
  induction count generalizing m with
  | zero => exact ⟨Nat.zero_le _, Nat.zero_le _⟩
  | succ count ih =>
    rw [readsOfProgram] at hprogram
    rw [readsOfInput] at hinput
    have hreads := programReads_framed (Nat.le_of_add_right_le hprogram)
    rw [hreads] at hprogram
    have hfirst := Nat.le_of_add_right_le hprogram
    have hheard := inputReads_framed hfirst (Nat.le_of_add_right_le hinput)
    rw [hheard] at hinput
    have hfits : f.Fits m := ⟨Or.inr hfirst, Or.inr (Nat.le_of_add_right_le hinput), Or.inl hoffset⟩
    have hstep : (m.framed f).step.machine = m.step.machine.framed f := by
      rw [hfits.step]
      rfl
    rw [hstep] at hprogram hinput
    refine suffices_succ.mpr ⟨hfirst, Nat.le_of_add_right_le hinput, ih ?_ ?_⟩
    · rw [events_step, List.length_drop]
      omega
    · rw [input_step, List.length_drop]
      omega

/-- What two machines have in common whose programs and inputs end differently. -/
structure SameSoFar (program program' input input' : List ReadEvent) (m m' : Machine) : Prop where
  tape : m.tape = m'.tape
  loops : m.loops = m'.loops
  recording : m.recording = m'.recording
  mode : m.mode = m'.mode
  summary : m.summary = m'.summary
  sink : m.sink = m'.sink
  exhausted : m.source.exhausted = m'.source.exhausted
  program_left : ∃ left, m.source.events = left ++ program ∧ m'.source.events = left ++ program'
  input_left : ∃ left, m.input = left ++ input ∧ m'.input = left ++ input'

/-- What a step consumes of the two streams. -/
structure ConsumesOnDemand (m : Machine) : Prop where
  /-- Nothing is read as long as the recording has an operation. -/
  exhausted : m.step.machine.source.events ≠ m.source.events →
    m.mode ≠ .halted ∧ m.recording.cursor = m.recording.ops.size
  /-- Otherwise all is read up to the operation, the end or the failure that comes next. -/
  upTo : m.mode ≠ .halted → m.recording.cursor = m.recording.ops.size → ∃ skipped, Silent skipped ∧
    (m.source.events = skipped ∧ m.step.machine.source.events = [] ∨
      ∃ event, event.isSilent = false ∧
        m.source.events = skipped ++ event :: m.step.machine.source.events)
  input : m.step.machine.input ≠ m.input → m.mode = .running ∧ m.fetch.1 = .ok (some .input)

theorem sameSoFar_framed (m : Machine) (program program' input input' : List ReadEvent) :
    SameSoFar program program' input input' (m.framed { program := program, input := input })
      (m.framed { program := program', input := input' }) where
  tape := rfl
  loops := rfl
  recording := rfl
  mode := rfl
  summary := rfl
  sink := rfl
  exhausted := rfl
  program_left := ⟨m.source.events, rfl, rfl⟩
  input_left := ⟨m.input, rfl, rfl⟩

variable {program read : List ReadEvent} {before : List Op} {depth : Nat}

/-- A machine that reads on has not met the end of its program. -/
theorem Follows.skips_upTo (h : Follows program read before depth m)
    (hend : m.recording.cursor = m.recording.ops.size) : ∃ skipped, Silent skipped ∧
      (m.source.events = skipped ∧ m.step.machine.source.events = [] ∨
        ∃ event, event.isSilent = false ∧
          m.source.events = skipped ++ event :: m.step.machine.source.events) := by
  obtain ⟨skipped, rest, hevents, hsilent, hhead⟩ := Source.exists_silent_append m.source.events
  have hreads : m.programReads = skipped.length + readsUpTo ReadEvent.isSilent rest := by
    rw [programReads, if_neg (not_or.mpr ⟨h.toRepresents.mode_ne_halted, by omega⟩), Source.reads,
      h.reads.exhausted, hevents]
    exact readsUpTo_passed_append hsilent rest
  refine ⟨skipped, hsilent, ?_⟩
  rw [events_step, hreads, hevents, ← List.drop_drop, List.drop_left]
  cases rest with
  | nil => exact Or.inl ⟨List.append_nil _, List.drop_nil⟩
  | cons event rest =>
    have hloud := hhead event rfl
    rw [readsUpTo_of_ending hloud]
    exact Or.inr ⟨event, hloud, rfl⟩

theorem Follows.consumesOnDemand (h : Follows program read before depth m) :
    ConsumesOnDemand m where
  exhausted hreads := by
    have hcursor := h.cursor_le
    rw [events_step, programReads] at hreads
    by_cases hnone : m.mode = .halted ∨ m.recording.cursor < m.recording.ops.size
    · simp [hnone] at hreads
    · obtain ⟨hgoes, hend⟩ := not_or.mp hnone
      exact ⟨hgoes, by omega⟩
  upTo _ := h.skips_upTo
  input hreads := by
    rw [input_step, inputReads] at hreads
    by_contra hnone
    simp [hnone] at hreads

theorem consumesOnDemand_of_halted (h : m.mode = .halted) : ConsumesOnDemand m where
  exhausted hreads := by simp [step_of_halted h, Step.quiet] at hreads
  upTo hgoes := absurd h hgoes
  input hreads := by simp [step_of_halted h, Step.quiet] at hreads

/-- Machines whose programs and inputs start alike do the same, with the same results, as long as
one of them has read nothing beyond the common parts; and no machine reads on before it must. -/
theorem sameSoFar_of_reads (config : Config) (known more more' heard further further' :
    List ReadEvent) (sink : Sink) :
    (∀ count,
      (initial config (known ++ more) (heard ++ further) sink).readsOfProgram count
          ≤ known.length →
      (initial config (known ++ more) (heard ++ further) sink).readsOfInput count
          ≤ heard.length →
      (∀ made ≤ count, SameSoFar more more' further further'
        ((initial config (known ++ more) (heard ++ further) sink).after made)
        ((initial config (known ++ more') (heard ++ further') sink).after made)) ∧
      ∀ made < count,
        ((initial config (known ++ more) (heard ++ further) sink).after made).step.fault
            = ((initial config (known ++ more') (heard ++ further') sink).after made).step.fault ∧
          ((initial config (known ++ more) (heard ++ further) sink).after made).step.events
            = ((initial config (known ++ more') (heard ++ further') sink).after
                made).step.events) ∧
      ∀ count, ConsumesOnDemand
        ((initial config (known ++ more) (heard ++ further) sink).after count) := by
  rw [← framed_initial config known more heard further,
    ← framed_initial config known more' heard further']
  refine ⟨fun count hprogram hinput => ?_, fun count => ?_⟩
  · have hknown := suffices_of_framed rfl hprogram hinput
    refine ⟨fun made hle => ?_, fun made hlt => ?_⟩
    · rw [hknown.framed rfl hle, hknown.framed rfl hle]
      exact sameSoFar_framed _ more more' further further'
    · have hle := Nat.le_of_lt hlt
      rw [hknown.framed rfl hle, hknown.framed rfl hle, (hknown.fits rfl hlt).step,
        (hknown.fits rfl hlt).step]
      exact ⟨rfl, rfl⟩
  · rw [framed_initial]
    by_cases hhalted :
        ((initial config (known ++ more) (heard ++ further) sink).after count).mode = .halted
    · exact consumesOnDemand_of_halted hhalted
    · obtain ⟨_, _, _, hfollows⟩ := followsAfter_of_mode config (known ++ more) (heard ++ further)
        sink count hhalted
      exact hfollows.toFollows.consumesOnDemand

/-- A loop is run through twice while nothing is known of the program behind it, nor of the input
behind the first byte. -/
theorem sameSoFar_of_loop :
    (initial { tapeSize := 3 } ([44, 91, 46, 45, 93].map .byte ++ [.endOfStream])
        ([.byte 2] ++ []) .accepting).readsOfProgram 9 ≤ 5 ∧
      (initial { tapeSize := 3 } ([44, 91, 46, 45, 93].map .byte ++ [.endOfStream])
        ([.byte 2] ++ []) .accepting).readsOfInput 9 ≤ 1 ∧
      SameSoFar [.endOfStream] [.byte 93, .byte 43] [] [.endOfStream]
        ((initial { tapeSize := 3 } ([44, 91, 46, 45, 93].map .byte ++ [.endOfStream])
          ([.byte 2] ++ []) .accepting).after 9)
        ((initial { tapeSize := 3 } ([44, 91, 46, 45, 93].map .byte ++ [.byte 93, .byte 43])
          ([.byte 2] ++ [.endOfStream]) .accepting).after 9) := by
  have hprogram : (initial { tapeSize := 3 } ([44, 91, 46, 45, 93].map .byte ++ [.endOfStream])
      ([.byte 2] ++ []) .accepting).readsOfProgram 9 ≤ 5 := by decide
  have hinput : (initial { tapeSize := 3 } ([44, 91, 46, 45, 93].map .byte ++ [.endOfStream])
      ([.byte 2] ++ []) .accepting).readsOfInput 9 ≤ 1 := by decide
  exact ⟨hprogram, hinput, ((sameSoFar_of_reads { tapeSize := 3 } ([44, 91, 46, 45, 93].map .byte)
    [.endOfStream] [.byte 93, .byte 43] [.byte 2] [] [.endOfStream] .accepting).1 9 hprogram
      hinput).1 9 (Nat.le_refl 9)⟩

end TapeMachine.Machine
