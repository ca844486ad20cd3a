import TapeMachine.Proofs.Machine.Anticipation
import TapeMachine.Proofs.Machine.Sequence

/-!
# Programs that break off

A program whose stream fails is executed as the part before the failure, up to the step in which
that part would have met its end. In this step the failure is reported in place of the end. What
stands behind the failure is never read, and the failure itself only if the end is needed.
-/

namespace TapeMachine

open Listing

namespace Source

theorem exhausted_scan {events : List ReadEvent} {offset : Nat}
    (h : (scan events offset).1 ≠ .ok none) : (scan events offset).2.exhausted = false := by
  fun_induction scan events offset <;> simp_all

/-- A source that reports an operation or a failure has not met the end. -/
theorem exhausted_next {s : Source} (h : s.next.1 ≠ .ok none) : s.next.2.exhausted = false := by
  unfold next at h ⊢
  split at h
  · exact absurd rfl h
  · next hgoes =>
    rw [if_neg hgoes]
    exact exhausted_scan h

/-- Where the end is met among bytes and interruptions there have been comments only. -/
theorem silent_of_scan {events : List ReadEvent} {offset : Nat} (hflow : Flowing events)
    (h : (scan events offset).1 = .ok none) : Silent events := by
  obtain ⟨skipped, rest, hsilent, rfl, hends⟩ := scan_cases events offset
  generalize scan (skipped ++ rest) offset = answer at h hends
  cases hends with
  | op op left | failure error left => simp at h
  | endOfStream left hrest =>
    have hmem : ReadEvent.endOfStream ∈ skipped ++ rest := by simp [hrest]
    exact absurd rfl (hflow _ hmem).1
  | noAnswer hrest => rwa [hrest, List.append_nil]

variable {s : Source}

/-- The end of a program, and a failure found in its place. -/
theorem next_of_end (hgoes : s.exhausted = false) (hsilent : Silent s.events) (error : IoError)
    (more : List ReadEvent) :
    s.next = (.ok none, ⟨[], s.offset + (delivered s.events).length, true⟩) ∧
      (s.framed { program := .failure error :: more }).next
        = (.error (.unavailable .program error),
          ⟨more, s.offset + (delivered s.events).length, false⟩) := by
  have hframed : (s.framed { program := .failure error :: more }).exhausted = false := hgoes
  have hend := scan_silent hsilent [] s.offset
  rw [List.append_nil] at hend
  refine ⟨by rw [next, hgoes]; exact hend, ?_⟩
  rw [next, hframed]
  change scan (s.events ++ .failure error :: more) (0 + s.offset) = _
  rw [scan_silent hsilent, Nat.zero_add]
  rfl

end Source

namespace Machine

/-- The next step meets the end of the program. -/
def MeetsEnd (m : Machine) : Prop := m.mode ≠ .halted ∧ m.fetch.1 = .ok none

/-- The machine of a program that broke off where that of another one has met its end. Some answers
behind the failure are left. -/
structure StopsShort (more : List ReadEvent) (m m' : Machine) : Prop where
  mode : m'.mode = .halted
  tape : m'.tape = m.tape
  loops : m'.loops = m.loops
  recording : m'.recording = m.recording
  steps : m'.steps = m.steps
  outputBytes : m'.outputBytes = m.outputBytes
  programBytes : m'.source.offset = m.source.offset
  sink : m'.sink = m.sink
  input : m'.input = m.input
  unclosedLoops : m'.unclosedLoops = 0
  unread : m'.source.events = more

variable {known read : List ReadEvent} {before : List Op} {depth count : Nat} {m : Machine}
  {error : IoError} {more : List ReadEvent}

/-- A step that does not meet the end reads no further than the answers of the program. -/
theorem programReads_le_of_not_meetsEnd (h : ¬m.MeetsEnd) :
    m.programReads ≤ m.source.events.length := by
  by_cases hnone : m.mode = .halted ∨ m.recording.cursor < m.recording.ops.size
  · rw [programReads, if_pos hnone]
    exact Nat.zero_le _
  · obtain ⟨hgoes, hlt⟩ := not_or.mp hnone
    have hfetch : m.source.next.1 ≠ .ok none := by
      intro hnext
      refine h ⟨hgoes, ?_⟩
      rw [fetch_of_size_le (Nat.le_of_not_lt hlt)]
      exact hnext
    rw [programReads, if_neg hnone]
    exact Source.reads_le_of_next (Source.exhausted_next hfetch)

theorem fits_of_not_meetsEnd (h : ¬m.MeetsEnd) (more : List ReadEvent) :
    Frame.Fits { program := more } m :=
  ⟨Or.inr (programReads_le_of_not_meetsEnd h), Or.inl rfl, Or.inl rfl⟩

/-- A machine that has met the end has halted with the step. -/
theorem MeetsEnd.halts (h : m.MeetsEnd) : m.step.machine.mode = .halted := by
  obtain ⟨hgoes, hfetch⟩ := h
  unfold step executeNext skipNext
  rcases hresult : m.fetch with ⟨_ | _ | op, m'⟩
  all_goals rw [hresult] at hfetch
  · simp at hfetch
  · cases hmode : m.mode with
    | halted => exact absurd hmode hgoes
    | running | skipping depth => rfl
  · simp at hfetch

/-- The end is met only once. -/
theorem not_meetsEnd_of_lt {made : Nat} (h : (m.after count).MeetsEnd) (hlt : made < count) :
    ¬(m.after made).MeetsEnd := by
  intro hmade
  have hhalts := hmade.halts
  rw [← after_succ_eq_step] at hhalts
  refine h.1 ?_
  rw [after_of_halted_le hhalts hlt]
  exact hhalts

theorem Follows.next_of_end (h : Follows known read before depth m) (hflow : Flowing known)
    (hend : m.MeetsEnd) (error : IoError) (more : List ReadEvent) :
    ∃ offset, m.fetch = (.ok none, { m with source := ⟨[], offset, true⟩ }) ∧
      (m.framed { program := .failure error :: more }).fetch
        = (.error (.unavailable .program error),
          { m.framed { program := .failure error :: more } with
            source := ⟨more, offset, false⟩ }) := by
  have hlt : ¬m.recording.cursor < m.recording.ops.size := by
    intro hlt
    have hnone := hend.2
    rw [fetch_of_lt hlt] at hnone
    simp at hnone
  have hle := Nat.le_of_not_lt hlt
  have hframed : (m.framed { program := .failure error :: more }).recording.ops.size
      ≤ (m.framed { program := .failure error :: more }).recording.cursor := hle
  have hevents : Flowing m.source.events := by
    intro event hmem
    refine hflow event ?_
    rw [h.reads.split]
    exact List.mem_append_right read hmem
  have hsilent : Silent m.source.events := by
    have hnone := hend.2
    rw [fetch_of_size_le hle, Source.next, h.reads.exhausted] at hnone
    exact Source.silent_of_scan hevents hnone
  obtain ⟨hnext, hbroken⟩ := Source.next_of_end h.reads.exhausted hsilent error more
  refine ⟨m.source.offset + (delivered m.source.events).length, ?_, ?_⟩
  · rw [fetch_of_size_le hle, hnext]
    rfl
  · have hsource : (m.framed { program := .failure error :: more }).source
        = m.source.framed { program := .failure error :: more } := rfl
    rw [fetch_of_size_le hframed, hsource, hbroken]
    rfl

/-- The step that meets the end, and the one that meets the failure in its place. -/
theorem Follows.stopsShort (h : Follows known read before depth m) (hflow : Flowing known)
    (hend : m.MeetsEnd) (hunclosed : m.unclosedLoops = 0) (error : IoError)
    (more : List ReadEvent) :
    m.step.fault = none ∧
      (m.framed { program := .failure error :: more }).step.fault
        = some (.unavailable .program error) ∧
      StopsShort more m.step.machine
        (m.framed { program := .failure error :: more }).step.machine := by
  obtain ⟨offset, hfetch, hbroken⟩ := h.next_of_end hflow hend error more
  have hmode : (m.framed { program := .failure error :: more }).mode = m.mode := rfl
  have hstops : ∀ unclosed, StopsShort more
      (Step.ended unclosed { m with source := ⟨[], offset, true⟩ }).machine
      (Step.failed (.unavailable .program error) { m.framed { program := .failure error :: more }
        with source := ⟨more, offset, false⟩ }).machine := fun unclosed =>
    ⟨rfl, rfl, rfl, rfl, Nat.zero_add _, Nat.zero_add _, rfl,
      by simp [Step.ended, Step.failed, framed, Sink.framed], List.append_nil _, hunclosed, rfl⟩
  unfold step executeNext skipNext
  rw [hmode, hfetch, hbroken]
  cases hm : m.mode with
  | halted => exact absurd hm hend.1
  | running | skipping depth => exact ⟨rfl, rfl, hstops _⟩

/-- A program that breaks off with a failed read is executed as the part before the failure as long
as that part does not meet its end. In the step in which it does, the failure is reported instead,
and nothing behind it is read. -/
theorem stopsShort_of_failure (config : Config) {known : List ReadEvent} (hflow : Flowing known)
    (error : IoError) (more input : List ReadEvent) (sink : Sink) :
    (∀ count, (∀ made < count, ¬((initial config known input sink).after made).MeetsEnd) →
      SameSoFar [] (.failure error :: more) [] []
          ((initial config known input sink).after count)
          ((initial config (known ++ .failure error :: more) input sink).after count) ∧
        ∀ made < count,
          ((initial config known input sink).after made).step.fault
              = ((initial config (known ++ .failure error :: more) input sink).after
                  made).step.fault ∧
            ((initial config known input sink).after made).step.events
              = ((initial config (known ++ .failure error :: more) input sink).after
                  made).step.events) ∧
      ∀ last, ((initial config known input sink).after last).MeetsEnd →
        (∀ made < last, ¬((initial config known input sink).after made).MeetsEnd) ∧
          ((initial config known input sink).after last).step.fault = none ∧
          ((initial config (known ++ .failure error :: more) input sink).after last).step.fault
            = some (.unavailable .program error) ∧
          ∀ later, last < later → StopsShort more ((initial config known input sink).after later)
            ((initial config (known ++ .failure error :: more) input sink).after later) := by
  have hwhole : (initial config known input sink).framed { program := [] }
      = initial config known input sink := by
    rw [framed_initial config known [] input [], List.append_nil, List.append_nil]
  have hbroken : initial config (known ++ .failure error :: more) input sink
      = (initial config known input sink).framed { program := .failure error :: more } := by
    rw [framed_initial config known (.failure error :: more) input [], List.append_nil]
  have hrun : ∀ {count}, (∀ made < count, ¬((initial config known input sink).after
      made).MeetsEnd) → ∀ more', ((initial config known input sink).framed
        { program := more' }).after count = ((initial config known input sink).after count).framed
          { program := more' } := fun hgoes more' =>
    Frame.after_framed fun made hlt => fits_of_not_meetsEnd (hgoes made hlt) more'
  rw [hbroken]
  refine ⟨fun count hgoes => ⟨?_, fun made hlt => ?_⟩, fun last hend => ?_⟩
  · have hsame := sameSoFar_framed ((initial config known input sink).after count) []
      (.failure error :: more) [] []
    rwa [← hrun hgoes [], hwhole, ← hrun hgoes (.failure error :: more)] at hsame
  · have hearlier : ∀ earlier < made, ¬((initial config known input sink).after
        earlier).MeetsEnd := fun _ hlt' => hgoes _ (Nat.lt_trans hlt' hlt)
    have hstep : ∀ more', (((initial config known input sink).framed
        { program := more' }).after made).step
          = ((initial config known input sink).after made).step.framed { program := more' } := by
      intro more'
      rw [hrun hearlier, (fits_of_not_meetsEnd (hgoes made hlt) more').step]
    have hsame := hstep []
    rw [hwhole] at hsame
    have hfault := congrArg Step.fault hsame
    have hevents := congrArg Step.events hsame
    rw [hstep]
    exact ⟨hfault, hevents⟩
  · have hgoes : ∀ made < last, ¬((initial config known input sink).after made).MeetsEnd :=
      fun _ hlt => not_meetsEnd_of_lt hend hlt
    obtain ⟨_, _, _, hfollows⟩ := followsAfter_of_mode config known input sink last hend.1
    obtain ⟨hfault, hfailed, hstops⟩ := hfollows.toFollows.stopsShort hflow hend
      (unclosedLoops_after hend.1) error more
    refine ⟨hgoes, hfault, ?_, fun later hlt => ?_⟩
    · rw [hrun hgoes]
      exact hfailed
    · rw [← hrun hgoes, ← after_succ_eq_step, ← after_succ_eq_step] at hstops
      rwa [after_of_halted_le (by rw [after_succ_eq_step]; exact hend.halts) hlt,
        after_of_halted_le hstops.mode hlt]

/-- The program breaks off in a loop that is gone through once, behind a comment. The end is looked
for in the seventh step. -/
theorem stopsShort_of_loop :
    Flowing ([44, 91, 45, 93, 43, 91, 35].map .byte) ∧
      ((initial { tapeSize := 3 } ([44, 91, 45, 93, 43, 91, 35].map .byte) [.byte 1]
        .accepting).after 6).MeetsEnd ∧
      StopsShort [.byte 43]
        ((initial { tapeSize := 3 } ([44, 91, 45, 93, 43, 91, 35].map .byte) [.byte 1]
          .accepting).after 7)
        ((initial { tapeSize := 3 } ([44, 91, 45, 93, 43, 91, 35].map .byte
          ++ .failure ⟨"gone"⟩ :: [.byte 43]) [.byte 1] .accepting).after 7) := by
  have hflow : Flowing ([44, 91, 45, 93, 43, 91, 35].map .byte) := by
    intro event hmem
    obtain ⟨value, -, rfl⟩ := List.mem_map.mp hmem
    exact ⟨nofun, nofun⟩
  have hend : ((initial { tapeSize := 3 } ([44, 91, 45, 93, 43, 91, 35].map .byte) [.byte 1]
      .accepting).after 6).MeetsEnd := ⟨by decide, by decide⟩
  exact ⟨hflow, hend, ((stopsShort_of_failure { tapeSize := 3 } hflow ⟨"gone"⟩ [.byte 43] [.byte 1]
    .accepting).2 6 hend).2.2.2 7 (by decide)⟩

end Machine

end TapeMachine
