import TapeMachine.Proofs.Machine.Frame
import TapeMachine.Proofs.Machine.Representation

/-!
# One program behind another

A program that runs to its end with every bracket closed leaves nothing behind but the tape, the
input and the sink. Put in front of another program it hands these over, and the two are executed as
if the second one were started on them.
-/

namespace TapeMachine.Machine

open Brackets Listing

/-- A machine that starts another program where a machine has ended. It counts anew. -/
def resume (program : List ReadEvent) (m : Machine) : Machine :=
  { initial m.config program m.input (.ofReplies m.sink.writes m.sink.flushes) with tape := m.tape }

/-- The counts and the output of a machine that has executed a text, for one that comes after. -/
def behind (text : List UInt8) (m : Machine) : Frame where
  offset := text.length
  output := m.sink.bytes
  writeCalls := m.sink.writeCalls
  flushCalls := m.sink.flushCalls
  steps := m.steps
  outputBytes := m.outputBytes

variable {program read : List ReadEvent} {before : List Op} {depth count : Nat} {m m' : Machine}

/-- What comes next does not depend on comments that have not been read. -/
theorem step_congr_source {source : Source} (hmode : m.mode ≠ .halted)
    (hend : m.recording.ops.size ≤ m.recording.cursor) (hnext : m.source.next = source.next) :
    { m with source := source }.step = m.step := by
  have hfetch : { m with source := source }.fetch = m.fetch := by
    rw [fetch_of_size_le hend, hnext]
    exact fetch_of_size_le (m := { m with source := source }) hend
  unfold step executeNext skipNext
  rw [hfetch]
  cases h : m.mode with
  | halted => exact absurd h hmode
  | running | skipping depth => rfl

theorem Follows.after (h : Follows program read before depth m)
    (hgoes : (m.after count).mode ≠ .halted) :
    ∃ read' before' depth', Follows program read' before' depth' (m.after count) := by
  induction count with
  | zero => exact ⟨read, before, depth, h⟩
  | succ count ih =>
    rw [after_succ_eq_step] at hgoes ⊢
    obtain ⟨read', before', depth', hfollows⟩ := ih (mode_ne_halted_of_step hgoes)
    obtain ⟨read'', before'', depth'', hadvances⟩ := hfollows.advances hgoes
    exact ⟨read'', before'', depth'', hadvances.follows⟩

/-- Whatever is fetched has been consumed. -/
theorem Follows.consumed (h : Follows program read before depth m) {op : Op}
    (hfetch : m.fetch.1 = .ok (some op)) : 0 < m.fetch.2.source.offset := by
  rcases h.fetch_cases with ⟨fetched, m', read', before', hfetched, hf⟩ | ⟨source, hnone, -⟩ |
    ⟨error, m', herror, -⟩
  · rw [hfetched, hf.reads.offset, List.length_pos_iff]
    intro hnil
    have hpassed := hf.fetched.passed_eq
    have hdelivered := hf.delivered_eq
    rw [hnil] at hdelivered
    have hlength := congrArg List.length hdelivered
    have hlength' := congrArg List.length hpassed
    simp [passed, operations] at hlength hlength'
    omega
  · rw [hnone] at hfetch
    simp at hfetch
  · rw [herror] at hfetch
    simp at hfetch

/-- A step that goes on has made no read beyond the answers of the program. -/
theorem programReads_le (h : m.step.machine.mode ≠ .halted)
    (hreads : m.step.machine.source.exhausted = false) :
    m.programReads ≤ m.source.events.length := by
  have hgoes := mode_ne_halted_of_step h
  by_cases hlt : m.recording.cursor < m.recording.ops.size
  · rw [programReads, if_pos (Or.inr hlt)]
    exact Nat.zero_le _
  · rw [source_step hgoes, fetch_of_size_le (Nat.le_of_not_lt hlt)] at hreads
    rw [programReads, if_neg (not_or.mpr ⟨hgoes, hlt⟩)]
    exact Source.reads_le_of_next hreads

/-- Up to its end a program is executed alike, whatever is put behind it. -/
theorem Follows.after_append (h : Follows program read before depth m)
    (hgoes : (m.after count).mode ≠ .halted) (more : List ReadEvent) :
    (m.framed { program := more }).after count = (m.after count).framed { program := more } := by
  refine Frame.after_framed fun made hlt => ⟨Or.inr ?_, Or.inl rfl, Or.inl rfl⟩
  have hstep : (m.after made).step.machine.mode ≠ .halted := by
    rw [← after_succ_eq_step]
    intro hhalted
    rw [after_of_halted_le hhalted hlt] at hgoes
    exact hgoes hhalted
  refine programReads_le hstep ?_
  rw [← after_succ_eq_step] at hstep ⊢
  obtain ⟨_, _, _, hfollows⟩ := h.after hstep
  exact hfollows.reads.exhausted

theorem unclosedLoops_after (h : (m.after count).mode ≠ .halted) :
    (m.after count).unclosedLoops = m.unclosedLoops := by
  induction count with
  | zero => rfl
  | succ count ih =>
    rw [after_succ_eq_step] at h ⊢
    rw [unclosedLoops_step h, ih (mode_ne_halted_of_step h)]

/-- A machine that has executed a text, but for comments at its end, and is outside every loop. -/
structure Spent (text : List UInt8) (m : Machine) : Prop where
  mode : m.mode = .running
  loops : m.loops = .empty
  recording : m.recording = .empty
  comments : ∃ rest, operations rest = [] ∧ m.source.offset + rest.length = text.length ∧
    m.source.events = rest.map .byte
  exhausted : m.source.exhausted = false

variable {text : List UInt8}

theorem Follows.spent (h : Follows (text.map .byte) read before depth m)
    (he : Ends (text.map .byte) before depth m) (hclosed : m.loops.depth + depth = 0) :
    Spent text m := by
  obtain rfl : depth = 0 := by omega
  have hloops : m.loops.positions = #[] :=
    Array.size_eq_zero_iff.mp (by simpa [LoopStack.depth] using hclosed)
  have hall := he.passed_all
  rw [h.reads.split, delivered_append h.reads.flowing, operations_append, h.delivered_eq] at hall
  -- Inside a recording the machine would be back at its first bracket, with operations before it.
  have hinactive : m.recording.ops = #[] := by
    by_contra hactive
    have hcursor := ((h.inside hactive).2.2 hloops).2.1
    rw [passed, hcursor] at hall
    simp [hactive] at hall
  have hcursor := h.cursor_le
  rw [hinactive] at hcursor
  obtain ⟨readText, rest, htext, hread, hevents⟩ := List.map_eq_append_iff.mp h.reads.split
  have hoffset := h.reads.offset
  rw [passed, hinactive, ← hevents, delivered_bytes] at hall
  rw [← hread, delivered_bytes] at hoffset
  refine ⟨h.mode, ?_, ?_, ⟨rest, by simpa using hall, ?_, hevents.symm⟩, h.reads.exhausted⟩
  · rcases hm : m.loops with ⟨positions⟩
    rw [hm] at hloops
    exact congrArg LoopStack.mk hloops
  · rcases hm : m.recording with ⟨ops, cursor⟩
    rw [hm] at hinactive hcursor
    obtain rfl : ops = #[] := hinactive
    exact congrArg (Recording.mk #[]) (Nat.eq_zero_of_le_zero hcursor)
  · rw [hoffset, htext, List.length_append]

theorem silent_bytes {rest : List UInt8} (h : operations rest = []) :
    Silent (rest.map .byte) := by
  intro event hmem
  obtain ⟨byte, hbyte, rfl⟩ := List.mem_map.mp hmem
  have hnone := (List.filterMap_eq_nil_iff.mp h) byte hbyte
  simp [ReadEvent.isSilent, hnone]

theorem Spent.upcoming (h : Spent text m) (second : List UInt8) :
    (m.framed { program := second.map .byte }).upcoming = operations second := by
  obtain ⟨rest, hrest, -, hevents⟩ := h.comments
  have hremaining : (m.source.framed { program := second.map .byte }).remaining
      = operations second := by
    have hexhausted : (m.source.framed { program := second.map .byte }).exhausted = false :=
      h.exhausted
    have hall : (m.source.framed { program := second.map .byte }).events
        = (rest ++ second).map .byte := by
      rw [List.map_append, ← hevents]
      rfl
    rw [Source.remaining, hexhausted, hall, delivered_bytes, operations_append, hrest]
    rfl
  have hunread : (m.framed { program := second.map .byte }).unread = [] := by
    show m.unread = []
    rw [unread, h.recording]
    rfl
  rw [Machine.upcoming, hunread]
  exact hremaining

/-- The next program is executed as by a machine that starts it. -/
theorem Spent.step (h : Spent text m) (hclosed : m.unclosedLoops = 0) (second : List UInt8) :
    (m.framed { program := second.map .byte }).step
      = ((m.resume (second.map .byte)).framed (behind text m)).step := by
  obtain ⟨rest, hrest, hoffset, hevents⟩ := h.comments
  have heq : m.framed { program := second.map .byte }
      = { (m.resume (second.map .byte)).framed (behind text m) with
          source := m.source.framed { program := second.map .byte } } := by
    obtain ⟨hmode, hloops, hrecording, -, -⟩ := h
    rcases m with ⟨config, source, input, ⟨_, _⟩, tape, recording, loops, mode, steps,
      outputBytes, unclosed⟩
    simp_all [framed, resume, behind, initial, Sink.framed, Sink.ofReplies]
  rw [heq]
  refine step_congr_source (by simp [framed, resume, initial]) (Nat.le_refl 0) ?_
  have hexhausted : (m.source.framed { program := second.map .byte }).exhausted = false :=
    h.exhausted
  have hsecond : ((m.resume (second.map .byte)).framed (behind text m)).source
      = ⟨second.map .byte, text.length, false⟩ := by
    simp [framed, resume, behind, initial, Source.framed, Source.ofEvents]
  have hcomments : (delivered (rest.map .byte)).length = rest.length := by rw [delivered_bytes]
  rw [hsecond, Source.next, Source.next, hexhausted]
  show Source.scan (second.map .byte) text.length
    = Source.scan (m.source.events ++ second.map .byte) (0 + m.source.offset)
  rw [hevents, Source.scan_silent (silent_bytes hrest), hcomments, Nat.zero_add, hoffset]

theorem fits_behind (text second : List UInt8) (m : Machine) (count : Nat) :
    (behind text m).Fits ((m.resume (second.map .byte)).after count) := by
  refine ⟨Or.inl rfl, Or.inl rfl, Or.inr fun hmode op hfetch => ?_⟩
  have hfollows : Follows (second.map .byte) [] [] 0 (m.resume (second.map .byte)) := by
    obtain ⟨⟨-, hcursor, hdepth, hopened, hout, -⟩, hreads, hdelivered⟩ :=
      follows_initial m.config (second.map .byte) m.input (.ofReplies m.sink.writes m.sink.flushes)
    exact ⟨⟨rfl, hcursor, hdepth, hopened, hout, fun hne => absurd rfl hne⟩, hreads, hdelivered⟩
  have hgoes : ((m.resume (second.map .byte)).after count).mode ≠ .halted := by simp [hmode]
  obtain ⟨_, _, _, hf⟩ := hfollows.after hgoes
  exact hf.consumed hfetch

theorem Spent.step_after (h : Spent text m) (hclosed : m.unclosedLoops = 0) (second : List UInt8)
    (count : Nat) : ((m.framed { program := second.map .byte }).after count).step
      = ((m.resume (second.map .byte)).after count).step.framed (behind text m) := by
  induction count with
  | zero => exact (h.step hclosed second).trans (fits_behind text second m 0).step
  | succ count ih =>
    rw [after_succ_eq_step, ih, ← (fits_behind text second m (count + 1)).step,
      after_succ_eq_step]
    rfl

/-- From the first step on the next program has been started behind the earlier one. -/
theorem Spent.after_succ (h : Spent text m) (hclosed : m.unclosedLoops = 0) (second : List UInt8)
    (count : Nat) : (m.framed { program := second.map .byte }).after (count + 1)
      = ((m.resume (second.map .byte)).after (count + 1)).framed (behind text m) := by
  rw [after_succ_eq_step, h.step_after hclosed, after_succ_eq_step]
  rfl

theorem Spent.mode_after (h : Spent text m) (hclosed : m.unclosedLoops = 0) (second : List UInt8)
    (count : Nat) : ((m.framed { program := second.map .byte }).after count).mode
      = ((m.resume (second.map .byte)).after count).mode := by
  cases count with
  | zero => exact h.mode
  | succ count =>
    rw [h.after_succ hclosed]
    rfl

/-- What a machine that has ended leaves to one that goes on with another program. -/
structure HandsOver (second : List UInt8) (m m' : Machine) : Prop where
  mode : m'.mode = .running
  loops : m'.loops = .empty
  recording : m'.recording = .empty
  upcoming : m'.upcoming = operations second
  tape : m'.tape = m.tape
  input : m'.input = m.input
  sink : m'.sink = m.sink
  steps : m'.steps = m.steps
  outputBytes : m'.outputBytes = m.outputBytes

/-- One machine has ended, another one goes on where it did, and the third has done what both have
done. -/
structure Joins (first : List UInt8) (earlier later both : Machine) : Prop where
  mode : both.mode = later.mode
  tape : both.tape = later.tape
  input : both.input = later.input
  output : both.sink.bytes = earlier.sink.bytes ++ later.sink.bytes
  steps : both.steps = earlier.steps + later.steps
  outputBytes : both.outputBytes = earlier.outputBytes + later.outputBytes
  unclosedLoops : both.unclosedLoops = later.unclosedLoops
  programBytes : both.source.offset = first.length + later.source.offset

theorem joins_behind (text : List UInt8) (m later : Machine) (unclosed : Nat) (source : Source) :
    Joins text (Step.ended unclosed { m with source := source }).machine later
      (later.framed (behind text m)) where
  mode := rfl
  tape := rfl
  input := List.append_nil _
  output := rfl
  steps := rfl
  outputBytes := rfl
  unclosedLoops := rfl
  programBytes := rfl

theorem handsOver_of_spent (h : Spent text m) (second : List UInt8) (source : Source) :
    HandsOver second (Step.ended 0 { m with source := source }).machine
      (m.framed { program := second.map .byte }) where
  mode := h.mode
  loops := h.loops
  recording := h.recording
  upcoming := h.upcoming second
  tape := rfl
  input := by simp [framed, Step.ended]
  sink := by simp [framed, Step.ended, Sink.framed]
  steps := by simp [framed, Step.ended]
  outputBytes := by simp [framed, Step.ended]

theorem Spent.run_of_later (h : Spent text m) (hclosed : m.unclosedLoops = 0) {second : List UInt8}
    {start : Machine} (hstart : start.after count = m.framed { program := second.map .byte })
    {fuel : Nat} {later : Run} (hlater : (m.resume (second.map .byte)).run fuel = some later) :
    ∃ both, start.run (count + fuel) = some both ∧
      both.fault = later.fault.map (Fault.relocate (text.length + ·)) ∧
      both.machine = later.machine.framed (behind text m) := by
  obtain ⟨last, hlt, hgoes, hhalts, hmachine, hfault⟩ :=
    exists_halting_of_run (by simp [resume, initial]) hlater
  have hstep := h.step_after hclosed second last
  rw [← h.mode_after hclosed] at hgoes
  rw [← hstart, ← after_add] at hgoes hstep
  obtain ⟨both, hboth, hend, hfails⟩ :=
    exists_run hgoes (by rw [hstep]; exact hhalts) (Nat.add_lt_add_left hlt count)
  rw [hstep] at hfails
  refine ⟨both, hboth, ?_, ?_⟩
  · rw [hfails, hfault]
    rfl
  · rw [hend, hstep, hmachine]
    rfl

/-- A program that is executed to its end with every bracket closed, and then another: the second
one is executed as if it had been started where the first one has ended. -/
theorem run_append (config : Config) (first second : List UInt8) (input : List ReadEvent)
    (sink : Sink) {fuel : Nat} {r : Run}
    (h : (initial config (first.map .byte) input sink).run fuel = some r)
    (hfault : r.fault = none) (hclosed : r.machine.unclosedLoops = 0) :
    ∃ count, ((initial config (first.map .byte) input sink).after count).mode ≠ .halted ∧
      (initial config (first.map .byte) input sink).after (count + 1) = r.machine ∧
      HandsOver second r.machine
        ((initial config ((first ++ second).map .byte) input sink).after count) ∧
      ∀ more,
        Joins first r.machine ((r.machine.resume (second.map .byte)).after (more + 1))
          ((initial config ((first ++ second).map .byte) input sink).after (count + (more + 1))) ∧
        ((initial config ((first ++ second).map .byte) input sink).run (count + more) = none ↔
          (r.machine.resume (second.map .byte)).run more = none) ∧
        ∀ later, (r.machine.resume (second.map .byte)).run more = some later → ∃ both,
          (initial config ((first ++ second).map .byte) input sink).run (count + more) = some both ∧
            both.fault = later.fault.map (Fault.relocate (first.length + ·)) ∧
            Joins first r.machine later.machine both.machine := by
  obtain ⟨last, -, hgoes, hhalts, hmachine, hfails⟩ :=
    exists_halting_of_run (by simp [initial]) h
  obtain ⟨read, before, depth, hf⟩ :=
    followsAfter_of_mode config (first.map .byte) input sink last hgoes
  have hends : Ends (first.map .byte) before depth
      ((initial config (first.map .byte) input sink).after last) := by
    rcases hf.step_cases with ⟨-, _, _, _, hadvances⟩ | ⟨-, hends⟩ | ⟨fault, hsome, -⟩
    · exact absurd hhalts hadvances.follows.mode_ne_halted
    · exact hends
    · rw [← hfails, hfault] at hsome
      simp at hsome
  obtain ⟨source, hended⟩ := hends.eq_ended
  rw [hended] at hmachine
  have hdepth : ((initial config (first.map .byte) input sink).after last).loops.depth + depth
      = 0 := by
    rw [hmachine] at hclosed
    exact hclosed
  have hspent := hf.toFollows.spent hends hdepth
  have hnone := unclosedLoops_after hgoes
  have hboth : (initial config ((first ++ second).map .byte) input sink).after last
      = ((initial config (first.map .byte) input sink).after last).framed
          { program := second.map .byte } := by
    rw [← (follows_initial config (first.map .byte) input sink).after_append hgoes,
      framed_initial, List.append_nil, List.map_append]
  rw [hdepth] at hmachine
  refine ⟨last, hgoes, ?_, ?_, fun more => ⟨?_, ?_, fun later hlater => ?_⟩⟩
  · rw [after_succ_eq_step, hended, hmachine, hdepth]
  · rw [hboth, hmachine]
    exact handsOver_of_spent hspent second source
  · rw [after_add last, hboth, hspent.after_succ hnone, hmachine]
    exact joins_behind first _ _ 0 source
  · rw [run_eq_none_iff, run_eq_none_iff, after_add, hboth, hspent.mode_after hnone, hmachine]
    exact Iff.rfl
  · rw [hmachine] at hlater
    obtain ⟨both, hrun, hrelocated, hframed⟩ := hspent.run_of_later hnone hboth hlater
    refine ⟨both, hrun, hrelocated, ?_⟩
    rw [hframed, hmachine]
    exact joins_behind first _ _ 0 source

/-- A loop is run through twice by a program with a comment at its end, and another program goes on
from there. -/
theorem run_append_loop :
    ∃ r, (initial { tapeSize := 3 } ([44, 91, 46, 45, 93, 32].map .byte) [.byte 2] .accepting).run 20
        = some r ∧ r.fault = none ∧ r.machine.unclosedLoops = 0 ∧
      ∃ count, HandsOver [43, 46] r.machine ((initial { tapeSize := 3 }
        (([44, 91, 46, 45, 93, 32] ++ [43, 46] : List UInt8).map .byte) [.byte 2] .accepting).after
          count) := by
  have hends : ((initial { tapeSize := 3 } ([44, 91, 46, 45, 93, 32].map .byte) [.byte 2]
      .accepting).run 20).any (fun r => r.fault = none ∧ r.machine.unclosedLoops = 0) = true := by
    decide
  obtain ⟨r, hrun, hend⟩ := (Option.any_eq_true _ _).mp hends
  obtain ⟨hfault, hclosed⟩ := of_decide_eq_true hend
  obtain ⟨count, -, -, hhands, -⟩ :=
    run_append { tapeSize := 3 } [44, 91, 46, 45, 93, 32] [43, 46] [.byte 2] .accepting hrun hfault
      hclosed
  exact ⟨r, hrun, hfault, hclosed, count, hhands⟩

end TapeMachine.Machine
