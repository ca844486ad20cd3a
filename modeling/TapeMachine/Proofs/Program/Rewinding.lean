import Mathlib.Data.List.Induction
import TapeMachine.Program.Recording
import TapeMachine.Proofs.Program.Answers

/-!
# A recording as a stream that can be rewound

A recording may be started, asked for operations, rewound and reset in any order. Between two resets
it holds the operation that it was started with and then all that its source has delivered since,
whatever was rewound in between: what it has is delivered again without a read, and a read takes
place only at its end. So the recordings of all periods make up what the source has delivered. The
cursor stands where it was set last and moves on with every operation that is delivered from there.
-/

namespace TapeMachine

/-- The recording after its source was asked for an operation. -/
def Recording.appending (r : Recording) : Except Fault (Option Op) → Recording
  | .ok (some op) => ⟨r.ops.push op, r.cursor + 1⟩
  | .ok none | .error _ => r

/-- At its end a recording asks the source. -/
theorem Recording.fetch_of_end {r : Recording} (source : Source) (h : r.cursor = r.size) :
    r.fetch source = (source.next.1, r.appending source.next.1, source.next.2) := by
  rw [fetch, Array.getElem?_eq_none (Nat.le_of_eq h.symm)]
  rcases hnext : source.next with ⟨_ | _ | op, next⟩
  · rfl
  · rfl
  · simp only [appending, h]
    rfl

/-- A recording together with the source from which it is filled. -/
structure Playback where
  recording : Recording
  source : Source
  deriving DecidableEq

namespace Playback

/-- What may be asked of a recording. -/
inductive Call where
  | start (op : Op)
  | fetch
  | rewind (position : Nat)
  | reset
  deriving DecidableEq

/-- The operation with which a call starts the recording. -/
def Call.startOp? : Call → Option Op
  | start op => some op
  | fetch | rewind _ | reset => none

/-- Where a call sets the cursor: behind the operation with which it starts the recording, at the
position to which it rewinds, or at the beginning. -/
def Call.position? : Call → Option Nat
  | start _ => some 1
  | rewind position => some position
  | reset => some 0
  | fetch => none

/-- An empty recording of a program of which nothing has been read. -/
def initial (program : List ReadEvent) : Playback := ⟨.empty, .ofEvents program⟩

def perform (p : Playback) : Call → Playback
  | .start op => { p with recording := .start op }
  | .fetch =>
    let (_, recording, source) := p.recording.fetch p.source
    ⟨recording, source⟩
  | .rewind position => { p with recording := p.recording.rewind position }
  | .reset => { p with recording := .empty }

def performAll (p : Playback) (calls : List Call) : Playback := calls.foldl perform p

/-- What a number of fetches deliver. -/
def fetched : Nat → Playback → List Op
  | 0, _ => []
  | count + 1, p =>
    (Source.answeredOp? (p.recording.fetch p.source).1).toList ++ fetched count (p.perform .fetch)

/-- The recorded operations before the cursor. -/
def passed (p : Playback) : List Op := p.recording.ops.toList.take p.recording.cursor

/-- A recording is started only if it is empty, and rewound only to a position that it has. -/
def Allows (p : Playback) : Call → Prop
  | .start _ => p.recording.ops = #[]
  | .rewind position => position < p.recording.size
  | .fetch | .reset => True

def AllowsAll : Playback → List Call → Prop
  | _, [] => True
  | p, call :: rest => p.Allows call ∧ (p.perform call).AllowsAll rest

/-- What is recorded in each period, up to a reset or up to now, without the operation that started
the recording. The one that started the current recording is given. -/
def periods : Playback → Option Op → List Call → List (List Op)
  | p, started, [] => [p.recording.ops.toList.drop started.toList.length]
  | p, started, .reset :: rest =>
    p.recording.ops.toList.drop started.toList.length :: (p.perform .reset).periods none rest
  | p, started, call :: rest => (p.perform call).periods (started.or call.startOp?) rest

instance (p : Playback) (call : Call) : Decidable (p.Allows call) :=
  match call with
  | .start _ => inferInstanceAs (Decidable (p.recording.ops = #[]))
  | .rewind position => inferInstanceAs (Decidable (position < p.recording.size))
  | .fetch | .reset => inferInstanceAs (Decidable True)

instance decidableAllowsAll : (p : Playback) → (calls : List Call) → Decidable (p.AllowsAll calls)
  | _, [] => inferInstanceAs (Decidable True)
  | p, call :: rest =>
    have := decidableAllowsAll (p.perform call) rest
    inferInstanceAs (Decidable (p.Allows call ∧ (p.perform call).AllowsAll rest))

variable {p : Playback} {call : Call} {calls earlier current : List Call} {started : Option Op}
  {delivered : List Op} {position : Nat}

theorem performAll_append (p : Playback) (first second : List Call) :
    p.performAll (first ++ second) = (p.performAll first).performAll second :=
  List.foldl_append

theorem allowsAll_append {first second : List Call} :
    p.AllowsAll (first ++ second) ↔
      p.AllowsAll first ∧ (p.performAll first).AllowsAll second := by
  induction first generalizing p with
  | nil => simp [AllowsAll, performAll]
  | cons call first ih =>
    rw [List.cons_append, AllowsAll, AllowsAll, ih, and_assoc]
    rfl

/-- The recording holds the operation that started it and what was delivered since. -/
structure Holds (started : Option Op) (delivered : List Op) (p : Playback) : Prop where
  ops_eq : p.recording.ops.toList = started.toList ++ delivered
  cursor_le : p.recording.cursor ≤ p.recording.size

theorem holds_empty (source : Source) : Holds none [] ⟨.empty, source⟩ := ⟨rfl, Nat.le_refl 0⟩

/-- The recording can only be started while it holds nothing. -/
theorem Holds.of_start (h : Holds started delivered p) (hempty : p.recording.ops = #[]) :
    started = none ∧ delivered = [] := by
  have hops := h.ops_eq
  rw [hempty] at hops
  obtain ⟨hstarted, hdelivered⟩ := List.append_eq_nil_iff.mp hops.symm
  exact ⟨Option.toList_eq_nil_iff.mp hstarted, hdelivered⟩

theorem Holds.fetch (h : Holds started delivered p) : ∃ count,
    (p.perform .fetch).source = p.source.after count ∧
      Holds started (delivered ++ p.source.answeredOps count) (p.perform .fetch) := by
  obtain ⟨hops, hcursor⟩ := h
  rcases Nat.lt_or_eq_of_le hcursor with hlt | hend
  · refine ⟨0, ?_, ?_, ?_⟩ <;> rw [perform, Recording.fetch_of_lt p.source hlt]
    · rfl
    · exact hops.trans (congrArg _ (List.append_nil delivered).symm)
    · exact hlt
  · refine ⟨1, ?_, ?_, ?_⟩ <;> rw [perform, Recording.fetch_of_end p.source hend]
    · rfl
    · show (p.recording.appending p.source.next.1).ops.toList = _
      rw [Source.answeredOps_one]
      rcases p.source.next.1 with fault | _ | op
      · simpa [Recording.appending, Source.answeredOp?] using hops
      · simpa [Recording.appending, Source.answeredOp?] using hops
      · simp [Recording.appending, Source.answeredOp?, hops]
    · show (p.recording.appending p.source.next.1).cursor
        ≤ (p.recording.appending p.source.next.1).size
      rcases p.source.next.1 with fault | _ | op
      · exact hcursor
      · exact hcursor
      · simpa [Recording.appending, Recording.size] using hcursor

/-- A call that is no reset adds what the source delivers in it. -/
theorem Holds.perform (h : Holds started delivered p) (hallows : p.Allows call)
    (hcall : call ≠ .reset) : ∃ count, (p.perform call).source = p.source.after count ∧
      Holds (started.or call.startOp?) (delivered ++ p.source.answeredOps count)
        (p.perform call) := by
  cases call with
  | start op =>
    obtain ⟨rfl, rfl⟩ := h.of_start hallows
    exact ⟨0, rfl, rfl, Nat.le_refl 1⟩
  | fetch =>
    rw [Call.startOp?, Option.or_none]
    exact h.fetch
  | rewind position =>
    rw [Call.startOp?, Option.or_none]
    refine ⟨0, rfl, h.ops_eq.trans ?_, Nat.le_of_lt hallows⟩
    exact congrArg _ (List.append_nil delivered).symm
  | reset => exact absurd rfl hcall

/-- Over a period the recording comes to hold all that the source delivers in it. -/
theorem Holds.performAll (h : Holds started delivered p) (hallows : p.AllowsAll calls)
    (hcalls : .reset ∉ calls) : ∃ count, (p.performAll calls).source = p.source.after count ∧
      Holds (started.or (calls.findSome? Call.startOp?)) (delivered ++ p.source.answeredOps count)
        (p.performAll calls) := by
  induction calls generalizing p started delivered with
  | nil =>
    refine ⟨0, rfl, ?_⟩
    rw [List.findSome?_nil, Option.or_none]
    exact ⟨h.ops_eq.trans (congrArg _ (List.append_nil delivered).symm), h.cursor_le⟩
  | cons call rest ih =>
    obtain ⟨hcall, hrest⟩ := not_or.mp (mt List.mem_cons.mpr hcalls)
    obtain ⟨first, hsource, hholds⟩ := h.perform hallows.1 (Ne.symm hcall)
    obtain ⟨second, hafter, hall⟩ := ih hholds hallows.2 hrest
    rw [hsource] at hafter hall
    refine ⟨first + second, ?_, ?_⟩
    · rw [Source.after_add]
      exact hafter
    · have hfirst : (call :: rest).findSome? Call.startOp?
          = call.startOp?.or (rest.findSome? Call.startOp?) := by
        rw [List.findSome?_cons]
        cases call.startOp? <;> rfl
      rw [hfirst, ← Option.or_assoc, Source.answeredOps_add, ← List.append_assoc]
      exact hall

/-- Period by period, the recordings make up what the source delivers. -/
theorem Holds.periods (h : Holds started delivered p) (hallows : p.AllowsAll calls) :
    ∃ count, (p.performAll calls).source = p.source.after count ∧
      (p.periods started calls).flatten = delivered ++ p.source.answeredOps count := by
  have hdrop : p.recording.ops.toList.drop started.toList.length = delivered := by
    rw [h.ops_eq, List.drop_left]
  induction calls generalizing p started delivered with
  | nil =>
    refine ⟨0, rfl, ?_⟩
    rw [Playback.periods, hdrop]
    rfl
  | cons call rest ih =>
    have hgoes : call ≠ .reset → ∃ count,
        (p.performAll (call :: rest)).source = p.source.after count ∧
          ((p.perform call).periods (started.or call.startOp?) rest).flatten
            = delivered ++ p.source.answeredOps count := by
      intro hcall
      obtain ⟨first, hsource, hholds⟩ := h.perform hallows.1 hcall
      obtain ⟨second, hafter, hall⟩ :=
        ih hholds hallows.2 (by rw [hholds.ops_eq, List.drop_left])
      rw [hsource] at hafter hall
      refine ⟨first + second, ?_, ?_⟩
      · rw [Source.after_add]
        exact hafter
      · rw [hall, Source.answeredOps_add, List.append_assoc]
    cases call with
    | start op => exact hgoes (by simp)
    | fetch => exact hgoes (by simp)
    | rewind position => exact hgoes (by simp)
    | reset =>
      obtain ⟨count, hafter, hall⟩ := ih (holds_empty p.source) hallows.2 rfl
      refine ⟨count, hafter, ?_⟩
      rw [Playback.periods, List.flatten_cons, hdrop]
      exact congrArg (delivered ++ ·) hall

/-- The calls end with those that came since the last reset. -/
structure SinceReset (earlier current : List Call) : Prop where
  cut : earlier = [] ∨ ∃ before, earlier = before ++ [.reset]
  noReset : .reset ∉ current

theorem exists_sinceReset (calls : List Call) : ∃ earlier current,
    calls = earlier ++ current ∧ SinceReset earlier current := by
  induction calls using List.reverseRecOn with
  | nil => exact ⟨[], [], rfl, Or.inl rfl, by simp⟩
  | append_singleton calls call ih =>
    by_cases hcall : call = .reset
    · exact ⟨calls ++ [call], [], (List.append_nil _).symm, Or.inr ⟨calls, by rw [hcall]⟩, by simp⟩
    · obtain ⟨earlier, current, rfl, hcut, hnone⟩ := ih
      refine ⟨earlier, current ++ [call], List.append_assoc _ _ _, hcut, ?_⟩
      simp [hnone, Ne.symm hcall]

/-- A period begins with nothing recorded. -/
theorem SinceReset.recording_eq (h : SinceReset earlier current) (program : List ReadEvent) :
    ((initial program).performAll earlier).recording = .empty := by
  rcases h.cut with rfl | ⟨before, rfl⟩
  · rfl
  · rw [performAll_append]
    rfl

theorem length_passed (h : p.recording.cursor ≤ p.recording.size) :
    p.passed.length = p.recording.cursor := by
  rw [passed, List.length_take, Array.length_toList]
  exact Nat.min_eq_left h

/-- A fetch passes what it delivers, whether that was recorded before or comes from the source. -/
theorem passed_fetch (h : p.recording.cursor ≤ p.recording.size) :
    (p.perform .fetch).passed
        = p.passed ++ (Source.answeredOp? (p.recording.fetch p.source).1).toList ∧
      (p.perform .fetch).recording.cursor ≤ (p.perform .fetch).recording.size := by
  rcases Nat.lt_or_eq_of_le h with hlt | hend
  · rw [perform, Recording.fetch_of_lt p.source hlt]
    refine ⟨?_, hlt⟩
    exact List.take_succ_eq_append_getElem hlt
  · rw [perform, Recording.fetch_of_end p.source hend]
    have hall : p.passed = p.recording.ops.toList :=
      List.take_of_length_le (Nat.le_of_eq hend.symm)
    rw [hall]
    rcases p.source.next.1 with fault | _ | op
    · exact ⟨hall.trans (List.append_nil _).symm, h⟩
    · exact ⟨hall.trans (List.append_nil _).symm, h⟩
    · have hsize : (p.recording.ops.push op).size = p.recording.cursor + 1 := by
        rw [Array.size_push, hend, Recording.size]
      refine ⟨?_, Nat.le_of_eq hsize.symm⟩
      show (p.recording.ops.push op).toList.take (p.recording.cursor + 1) = _
      rw [← hsize, ← Array.length_toList, List.take_length, Array.toList_push]
      rfl

/-- What fetches deliver comes behind what was passed. -/
theorem passed_performAll (h : p.recording.cursor ≤ p.recording.size) (count : Nat) :
    (p.performAll (List.replicate count .fetch)).passed = p.passed ++ p.fetched count := by
  induction count generalizing p with
  | zero => exact (List.append_nil _).symm
  | succ count ih =>
    obtain ⟨hpassed, hcursor⟩ := passed_fetch h
    rw [fetched, ← List.append_assoc, ← hpassed]
    exact ih hcursor

theorem cursor_of_position (h : call.position? = some position) :
    (p.perform call).recording.cursor = position := by
  cases call with
  | fetch => simp [Call.position?] at h
  | start op | rewind place | reset => exact Option.some.inj h

/-- The last call has set the cursor to a position, or there is none and it stands at the
beginning. -/
def SetLast (calls : List Call) (position : Nat) : Prop :=
  calls = [] ∧ position = 0 ∨
    ∃ before call, calls = before ++ [call] ∧ call.position? = some position

theorem exists_setLast (calls : List Call) : ∃ earlier position count,
    calls = earlier ++ List.replicate count .fetch ∧ SetLast earlier position := by
  induction calls using List.reverseRecOn with
  | nil => exact ⟨[], 0, 0, rfl, Or.inl ⟨rfl, rfl⟩⟩
  | append_singleton calls call ih =>
    cases hposition : call.position? with
    | some position =>
      exact ⟨calls ++ [call], position, 0, (List.append_nil _).symm,
        Or.inr ⟨calls, call, rfl, hposition⟩⟩
    | none =>
      obtain rfl : call = .fetch := by cases call <;> simp [Call.position?] at hposition ⊢
      obtain ⟨earlier, position, count, rfl, hset⟩ := ih
      refine ⟨earlier, position, count + 1, ?_, hset⟩
      rw [List.append_assoc, List.replicate_succ']

theorem SetLast.cursor_eq (h : SetLast calls position) (program : List ReadEvent) :
    ((initial program).performAll calls).recording.cursor = position := by
  rcases h with ⟨rfl, rfl⟩ | ⟨before, call, rfl, hposition⟩
  · rfl
  · rw [performAll_append]
    exact cursor_of_position hposition

/-- How a recording stands after a number of calls. -/
structure Rewinds (program : List ReadEvent) (calls : List Call) (p : Playback) : Prop where
  /-- Since the last reset the source was called so many times, and what it delivered is recorded
  behind the operation that started the recording. -/
  recorded : ∃ earlier current count, calls = earlier ++ current ∧ SinceReset earlier current ∧
    p.source = ((initial program).performAll earlier).source.after count ∧
    p.recording.ops.toList = (current.findSome? Call.startOp?).toList
      ++ ((initial program).performAll earlier).source.answeredOps count
  cursor_le : p.recording.cursor ≤ p.recording.size
  /-- Starting the recording sets the cursor to 1, rewinding it to a position sets it there, and a
  reset sets it to 0. -/
  cursor_eq : ∀ before call position, calls = before ++ [call] → call.position? = some position →
    p.recording.cursor = position
  /-- Since the cursor was set last it has been moved by fetches only. They have delivered what is
  recorded from there on, and it stands behind that. -/
  played : ∃ earlier position count, calls = earlier ++ List.replicate count .fetch ∧
    SetLast earlier position ∧
    p.recording.cursor
      = position + (((initial program).performAll earlier).fetched count).length ∧
    p.passed.drop position = ((initial program).performAll earlier).fetched count
  /-- What is recorded is delivered without a read. -/
  replays : ∀ h : p.recording.cursor < p.recording.ops.size, p.recording.fetch p.source
    = (.ok (some p.recording.ops[p.recording.cursor]),
        ⟨p.recording.ops, p.recording.cursor + 1⟩, p.source)
  /-- At its end the recording delivers what the source does, and takes it up. -/
  reads : p.recording.cursor = p.recording.size → p.recording.fetch p.source
    = (p.source.next.1, p.recording.appending p.source.next.1, p.source.next.2)
  periods : ∃ count, p.source = (Source.ofEvents program).after count ∧
    ((initial program).periods none calls).flatten = (Source.ofEvents program).answeredOps count

/-- A recording is rewound to what it has from a position on. -/
theorem played_performAll (program : List ReadEvent) (calls : List Call)
    (hcursor : ∀ front, front <+: calls → ((initial program).performAll front).recording.cursor
      ≤ ((initial program).performAll front).recording.size) :
    ∃ earlier position count, calls = earlier ++ List.replicate count .fetch ∧
      SetLast earlier position ∧
      ((initial program).performAll calls).recording.cursor
        = position + (((initial program).performAll earlier).fetched count).length ∧
      ((initial program).performAll calls).passed.drop position
        = ((initial program).performAll earlier).fetched count := by
  obtain ⟨earlier, position, count, rfl, hset⟩ := exists_setLast calls
  have hbefore := hcursor earlier (List.prefix_append _ _)
  have hpassed := passed_performAll hbefore count
  rw [← performAll_append] at hpassed
  have hlength := length_passed hbefore
  rw [hset.cursor_eq program] at hlength
  refine ⟨earlier, position, count, rfl, hset, ?_, ?_⟩
  · rw [← length_passed (hcursor _ List.prefix_rfl), hpassed, List.length_append, hlength]
  · rw [hpassed]
    exact List.drop_left' hlength

/-- Over any calls the recording holds what it was started with and what was delivered since the
last reset. -/
theorem exists_holds (program : List ReadEvent) (h : (initial program).AllowsAll calls) :
    ∃ earlier current count, calls = earlier ++ current ∧ SinceReset earlier current ∧
      ((initial program).performAll calls).source
        = ((initial program).performAll earlier).source.after count ∧
      Holds (current.findSome? Call.startOp?)
        (((initial program).performAll earlier).source.answeredOps count)
        ((initial program).performAll calls) := by
  obtain ⟨earlier, current, rfl, hsince⟩ := exists_sinceReset calls
  obtain ⟨-, hcurrent⟩ := allowsAll_append.mp h
  have hempty := hsince.recording_eq program
  have hholds : Holds none [] ((initial program).performAll earlier) := by
    constructor
    · rw [hempty]
      rfl
    · rw [hempty]
      exact Nat.le_refl 0
  obtain ⟨count, hsource, hall⟩ := hholds.performAll hcurrent hsince.noReset
  rw [← performAll_append] at hsource hall
  exact ⟨earlier, current, count, rfl, hsince, hsource, hall⟩

/-- Whatever is asked of a recording, it is the stream of its source, kept from the last reset on
and told again from where it was rewound to. -/
theorem rewinds_performAll (program : List ReadEvent) (calls : List Call)
    (h : (initial program).AllowsAll calls) :
    Rewinds program calls ((initial program).performAll calls) := by
  have hcursor : ∀ front, front <+: calls → ((initial program).performAll front).recording.cursor
      ≤ ((initial program).performAll front).recording.size := by
    rintro front ⟨behind, rfl⟩
    obtain ⟨_, _, _, -, -, -, hholds⟩ := exists_holds program (allowsAll_append.mp h).1
    exact hholds.cursor_le
  obtain ⟨earlier, current, count, hcalls, hsince, hsource, hholds⟩ := exists_holds program h
  exact {
    recorded := ⟨earlier, current, count, hcalls, hsince, hsource, hholds.ops_eq⟩
    cursor_le := hholds.cursor_le
    cursor_eq := fun before call position hlast hposition =>
      SetLast.cursor_eq (Or.inr ⟨before, call, hlast, hposition⟩) program
    played := played_performAll program calls hcursor
    replays := fun hlt => Recording.fetch_of_lt _ hlt
    reads := fun hend => Recording.fetch_of_end _ hend
    periods := (holds_empty (.ofEvents program)).periods h }

/-- A failed read in the middle of a recording that is replayed over its end, and a recording that
is filled without having been started. -/
theorem rewinds_over_failure :
    (initial [.byte 43, .failure ⟨"reset"⟩, .byte 45, .byte 46]).AllowsAll
        [.start .loopOpen, .fetch, .fetch, .rewind 0, .fetch, .fetch, .fetch, .reset, .fetch] ∧
      Rewinds [.byte 43, .failure ⟨"reset"⟩, .byte 45, .byte 46]
        [.start .loopOpen, .fetch, .fetch, .rewind 0, .fetch, .fetch, .fetch, .reset, .fetch]
        ((initial [.byte 43, .failure ⟨"reset"⟩, .byte 45, .byte 46]).performAll
          [.start .loopOpen, .fetch, .fetch, .rewind 0, .fetch, .fetch, .fetch, .reset,
            .fetch]) :=
  ⟨by decide, rewinds_performAll _ _ (by decide)⟩

end Playback

end TapeMachine
