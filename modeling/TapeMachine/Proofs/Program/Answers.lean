import Mathlib.Data.List.Basic
import TapeMachine.Proofs.Program.Reading

/-!
# The answers of a source

A source may be called again after a failed read and after the end of its program. What it answers
over any number of calls is then a matter of the events that it has consumed: the operations and the
failures before the first end of the stream, each once and in their order, and from the end on
nothing but the end. The offset counts the bytes consumed, so that behind an operation it is one
more than the index of its byte.
-/

namespace TapeMachine

/-- The event delivers a byte. -/
def ReadEvent.isByte : ReadEvent → Bool
  | byte _ => true
  | endOfStream | interrupted | failure _ => false

namespace Listing

/-- The number of bytes in a stream, behind an end too. -/
def byteCount (events : List ReadEvent) : Nat := events.countP ReadEvent.isByte

/-- What a stream has for the reader of a program before its first end: the operations that its
bytes denote and the failures. Comments and interruptions leave nothing. -/
def outcomes : List ReadEvent → List (Except Fault (Option Op))
  | [] => []
  | .endOfStream :: _ => []
  | .interrupted :: rest => outcomes rest
  | .failure error :: rest => .error (.unavailable .program error) :: outcomes rest
  | .byte value :: rest =>
    match Op.ofByte? value with
    | some op => .ok (some op) :: outcomes rest
    | none => outcomes rest

theorem byteCount_append (first second : List ReadEvent) :
    byteCount (first ++ second) = byteCount first + byteCount second :=
  List.countP_append

/-- As long as no end is met, a stream is told in parts. -/
theorem outcomes_append {first : List ReadEvent} (h : .endOfStream ∉ first)
    (second : List ReadEvent) : outcomes (first ++ second) = outcomes first ++ outcomes second := by
  induction first with
  | nil => rfl
  | cons event rest ih =>
    obtain ⟨hevent, hrest⟩ := not_or.mp (mt List.mem_cons.mpr h)
    cases event with
    | endOfStream => exact absurd rfl hevent
    | interrupted => exact ih hrest
    | failure error =>
      rw [List.cons_append, outcomes, outcomes, ih hrest]
      rfl
    | byte value =>
      rw [List.cons_append, outcomes, outcomes, ih hrest]
      cases Op.ofByte? value <;> rfl

theorem outcomes_silent {events : List ReadEvent} (h : Silent events) : outcomes events = [] := by
  induction events with
  | nil => rfl
  | cons event rest ih =>
    have hrest : Silent rest := fun e he => h e (List.mem_cons_of_mem _ he)
    have hevent := h event List.mem_cons_self
    cases event with
    | byte value =>
      have hnone : Op.ofByte? value = none := Option.isNone_iff_eq_none.mp hevent
      rw [outcomes, hnone]
      exact ih hrest
    | interrupted => exact ih hrest
    | endOfStream | failure error => simp [ReadEvent.isSilent] at hevent

/-- The end of a stream has been met, with these events read and those left: the last event read is
the first end in the stream, or there is none and nothing is left. -/
def EndMet (read left : List ReadEvent) : Prop :=
  (∃ front, read = front ++ [.endOfStream] ∧ .endOfStream ∉ front) ∨
    .endOfStream ∉ read ∧ left = []

theorem EndMet.append {first read left : List ReadEvent} (h : EndMet read left)
    (hfirst : .endOfStream ∉ first) : EndMet (first ++ read) left := by
  rcases h with ⟨front, rfl, hfront⟩ | ⟨hread, hleft⟩
  · exact Or.inl ⟨first ++ front, (List.append_assoc _ _ _).symm, by simp [hfirst, hfront]⟩
  · exact Or.inr ⟨by simp [hfirst, hread], hleft⟩

theorem Silent.endOfStream_notMem {events : List ReadEvent} (h : Silent events) :
    .endOfStream ∉ events :=
  fun hmem => (h.flowing _ hmem).1 rfl

theorem byteCount_flowing {events : List ReadEvent} (h : Flowing events) :
    byteCount events = (delivered events).length := by
  induction events with
  | nil => rfl
  | cons event rest ih =>
    have hrest : Flowing rest := fun e he => h e (List.mem_cons_of_mem _ he)
    have hevent := h event List.mem_cons_self
    cases event with
    | byte value =>
      rw [byteCount, List.countP_cons_of_pos rfl, ← byteCount, ih hrest]
      rfl
    | interrupted =>
      rw [byteCount, List.countP_cons_of_neg (by simp [ReadEvent.isByte]), ← byteCount, ih hrest]
      rfl
    | endOfStream => exact absurd rfl hevent.1
    | failure error => exact absurd rfl (hevent.2 error)

end Listing

namespace Source

open Listing

/-- The source after a number of calls. -/
def after : Nat → Source → Source
  | 0, s => s
  | count + 1, s => after count s.next.2

/-- What a number of calls answer. -/
def answers : Nat → Source → List (Except Fault (Option Op))
  | 0, _ => []
  | count + 1, s => s.next.1 :: answers count s.next.2

/-- The operation in an answer, if there is one. -/
def answeredOp? : Except Fault (Option Op) → Option Op
  | .ok op => op
  | .error _ => none

/-- The operations among the answers of a number of calls. -/
def answeredOps (count : Nat) (s : Source) : List Op := (s.answers count).filterMap answeredOp?

variable {program read : List ReadEvent} {s : Source} {count : Nat}

theorem after_succ_eq_next (count : Nat) (s : Source) :
    s.after (count + 1) = (s.after count).next.2 := by
  induction count generalizing s with
  | zero => rfl
  | succ count ih => exact ih s.next.2

theorem after_add (first second : Nat) (s : Source) :
    s.after (first + second) = (s.after first).after second := by
  induction first generalizing s with
  | zero => rw [Nat.zero_add, after]
  | succ first ih =>
    rw [Nat.succ_add, after, ih]
    rfl

theorem answers_succ_eq_append (count : Nat) (s : Source) :
    s.answers (count + 1) = s.answers count ++ [(s.after count).next.1] := by
  induction count generalizing s with
  | zero => rfl
  | succ count ih =>
    rw [answers, ih s.next.2]
    rfl

theorem answeredOps_succ (count : Nat) (s : Source) :
    s.answeredOps (count + 1)
      = s.answeredOps count ++ (answeredOp? (s.after count).next.1).toList := by
  rw [answeredOps, answers_succ_eq_append, List.filterMap_append, answeredOps]
  cases h : answeredOp? (s.after count).next.1 <;> simp [h]

theorem answeredOps_one (s : Source) : s.answeredOps 1 = (answeredOp? s.next.1).toList :=
  answeredOps_succ 0 s

theorem answeredOps_add (first second : Nat) (s : Source) :
    s.answeredOps (first + second) = s.answeredOps first ++ (s.after first).answeredOps second := by
  induction second with
  | zero => simp [answeredOps, answers]
  | succ second ih =>
    rw [← Nat.add_assoc, answeredOps_succ, ih, answeredOps_succ, after_add, List.append_assoc]

/-- The operations before the end of a stream, with its failures left out. -/
theorem filterMap_outcomes (events : List ReadEvent) :
    (outcomes events).filterMap answeredOp? = operations (delivered events) := by
  induction events with
  | nil => rfl
  | cons event rest ih =>
    cases event with
    | endOfStream => rfl
    | interrupted | failure error => exact ih
    | byte value =>
      cases hop : Op.ofByte? value with
      | none => simpa [outcomes, delivered, operations, hop] using ih
      | some op => simpa [outcomes, delivered, operations, hop, answeredOp?] using ih

/-- What one call of a source that goes on consumes, and what it makes of that. -/
structure Consumes (passed : List ReadEvent) (s : Source) : Prop where
  split : s.events = passed ++ s.next.2.events
  offset : s.next.2.offset = s.offset + byteCount passed
  goes : s.next.2.exhausted = false → .endOfStream ∉ passed ∧ outcomes passed = [s.next.1]
  ends : s.next.2.exhausted = true → s.next.1 = .ok none ∧ outcomes passed = [] ∧
    EndMet passed s.next.2.events
  located : ∀ op, s.next.1 = .ok (some op) → ∃ front, passed = front ++ [.byte op.byte]

section Call

variable {skipped tail left : List ReadEvent} {answer : Except Fault (Option Op)}
  {exhausted : Bool}

/-- The events that end a call decide on its answer. Those before them are passed over. -/
theorem consumes_append (hsilent : Silent skipped) (hevents : s.events = skipped ++ (tail ++ left))
    (hnext : s.next
      = (answer, ⟨left, s.offset + byteCount skipped + byteCount tail, exhausted⟩))
    (hgoes : exhausted = false → .endOfStream ∉ tail ∧ outcomes tail = [answer])
    (hends : exhausted = true → answer = .ok none ∧ outcomes tail = [] ∧ EndMet tail left)
    (hop : ∀ op, answer = .ok (some op) → tail = [.byte op.byte]) :
    Consumes (skipped ++ tail) s := by
  have hgoing := hsilent.endOfStream_notMem
  have houtcomes : outcomes (skipped ++ tail) = outcomes tail := by
    rw [outcomes_append hgoing, outcomes_silent hsilent, List.nil_append]
  refine ⟨?_, ?_, ?_, ?_, ?_⟩
  · rw [hnext, hevents, List.append_assoc]
  · rw [hnext, byteCount_append, Nat.add_assoc]
  · rw [hnext, houtcomes]
    intro hfalse
    obtain ⟨hmem, htail⟩ := hgoes hfalse
    exact ⟨by simp [hgoing, hmem], htail⟩
  · rw [hnext, houtcomes]
    intro htrue
    obtain ⟨hanswer, htail, hmet⟩ := hends htrue
    exact ⟨hanswer, htail, hmet.append hgoing⟩
  · rw [hnext]
    intro op hanswer
    exact ⟨skipped, by rw [hop op hanswer]⟩

end Call

/-- A call passes over comments and interruptions, and consumes the one event that it answers. -/
theorem exists_consumes (h : s.exhausted = false) : ∃ passed, Consumes passed s := by
  obtain ⟨skipped, rest, hsilent, hevents, hends⟩ := scan_cases s.events s.offset
  have hnext : s.next = scan s.events s.offset := by
    rw [next, h]
    rfl
  rw [← byteCount_flowing hsilent.flowing, ← hnext] at hends
  generalize hanswer : s.next = answer at hends
  cases hends with
  | op op left hrest =>
    subst hrest
    refine ⟨skipped ++ [.byte op.byte], consumes_append hsilent hevents hanswer ?_ ?_ ?_⟩
    · intro _
      rw [outcomes, Op.ofByte?_byte]
      exact ⟨by simp, rfl⟩
    · intro htrue
      simp at htrue
    · intro fetched hop
      obtain rfl := Option.some.inj (Except.ok.inj hop)
      rfl
  | endOfStream left hrest =>
    subst hrest
    refine ⟨skipped ++ [.endOfStream], consumes_append hsilent hevents hanswer ?_ ?_ ?_⟩
    · intro hfalse
      simp at hfalse
    · exact fun _ => ⟨rfl, rfl, Or.inl ⟨[], rfl, List.not_mem_nil⟩⟩
    · intro op hop
      simp at hop
  | noAnswer hrest =>
    subst hrest
    refine ⟨skipped ++ [], consumes_append hsilent hevents hanswer ?_ ?_ ?_⟩
    · intro hfalse
      simp at hfalse
    · exact fun _ => ⟨rfl, rfl, Or.inr ⟨List.not_mem_nil, rfl⟩⟩
    · intro op hop
      simp at hop
  | failure error left hrest =>
    subst hrest
    refine ⟨skipped ++ [.failure error], consumes_append hsilent hevents hanswer ?_ ?_ ?_⟩
    · exact fun _ => ⟨by simp, rfl⟩
    · intro htrue
      simp at htrue
    · intro op hop
      simp at hop

/-- Behind its end a source changes no more, and answers nothing but the end. -/
theorem rests_of_exhausted (h : s.exhausted = true) (more : Nat) :
    s.after more = s ∧ s.answers more = List.replicate more (.ok none) := by
  induction more with
  | zero => exact ⟨rfl, rfl⟩
  | succ more ih =>
    rw [after, answers, next_of_exhausted h, ih.1, ih.2]
    exact ⟨rfl, rfl⟩

/-- A source that has given answers to so many calls, `ends` of them behind its last event, for the
events that it has consumed. -/
structure Answered (program read : List ReadEvent) (ends : Nat)
    (answers : List (Except Fault (Option Op))) (s : Source) : Prop where
  split : program = read ++ s.events
  answers_eq : answers = outcomes read ++ List.replicate ends (.ok none)
  exhausted_iff : s.exhausted = true ↔ 0 < ends
  offset : s.offset = byteCount read
  goes : s.exhausted = false → .endOfStream ∉ read
  met : s.exhausted = true → EndMet read s.events
  located : ∀ earlier op, answers = earlier ++ [.ok (some op)] →
    ∃ front, read = front ++ [.byte op.byte]

variable {ends : Nat} {given : List (Except Fault (Option Op))}

/-- One more call answers for what it consumes, and behind the end for nothing. -/
theorem Answered.next (h : Answered program read ends given s) :
    ∃ read' ends', Answered program read' ends' (given ++ [s.next.1]) s.next.2 := by
  cases hexhausted : s.exhausted with
  | true =>
    rw [next_of_exhausted hexhausted]
    refine ⟨read, ends + 1, h.split, ?_, ?_, h.offset, h.goes, h.met, ?_⟩
    · rw [h.answers_eq, List.append_assoc, List.replicate_succ']
    · simp [hexhausted]
    · intro earlier op hlast
      simpa using (List.append_inj' hlast rfl).2
  | false =>
    obtain ⟨passed, hpassed⟩ := exists_consumes hexhausted
    obtain rfl : ends = 0 := by
      have hends := h.exhausted_iff
      rw [hexhausted] at hends
      simpa using hends
    have hgoing := h.goes hexhausted
    have houtcomes : given ++ outcomes passed = outcomes (read ++ passed) := by
      rw [outcomes_append hgoing, h.answers_eq]
      simp
    have hlocated : ∀ earlier op, given ++ [s.next.1] = earlier ++ [.ok (some op)] →
        ∃ front, read ++ passed = front ++ [.byte op.byte] := by
      intro earlier op hlast
      obtain ⟨front, rfl⟩ := hpassed.located op (by simpa using (List.append_inj' hlast rfl).2)
      exact ⟨read ++ front, by rw [List.append_assoc]⟩
    have hsplit : program = read ++ passed ++ s.next.2.events := by
      rw [h.split, hpassed.split, List.append_assoc]
    have hoffset : s.next.2.offset = byteCount (read ++ passed) := by
      rw [hpassed.offset, h.offset, byteCount_append]
    cases hafter : s.next.2.exhausted with
    | true =>
      obtain ⟨hanswer, hnone, hmet⟩ := hpassed.ends hafter
      refine ⟨read ++ passed, 1, hsplit, ?_, by simp [hafter], hoffset, ?_, ?_, hlocated⟩
      · rw [← houtcomes, hnone, hanswer]
        simp
      · rw [hafter]
        simp
      · exact fun _ => hmet.append hgoing
    | false =>
      obtain ⟨hmem, hanswer⟩ := hpassed.goes hafter
      refine ⟨read ++ passed, 0, hsplit, ?_, by simp [hafter], hoffset, ?_, ?_, hlocated⟩
      · rw [← houtcomes, hanswer]
        simp
      · exact fun _ => by simp [hgoing, hmem]
      · rw [hafter]
        simp

theorem exists_answered (program : List ReadEvent) (count : Nat) : ∃ read ends,
    Answered program read ends ((ofEvents program).answers count)
      ((ofEvents program).after count) := by
  induction count with
  | zero =>
    refine ⟨[], 0, rfl, rfl, ?_, rfl, fun _ => by simp, ?_, ?_⟩
    · simp [after, ofEvents]
    · intro hexhausted
      simp [after, ofEvents] at hexhausted
    · intro earlier op hlast
      simp [answers] at hlast
  | succ count ih =>
    obtain ⟨read, ends, h⟩ := ih
    rw [answers_succ_eq_append, after_succ_eq_next]
    exact h.next

/-- What a source has answered in a number of calls, and how it stands, in terms of the events that
it has consumed. -/
structure AnswersFor (program read : List ReadEvent) (count : Nat) : Prop where
  split : program = read ++ ((ofEvents program).after count).events
  /-- Operations and failures in the order in which they are read, then the end only. -/
  answers : ∃ ends, (ofEvents program).answers count
      = outcomes read ++ List.replicate ends (.ok none) ∧
    (((ofEvents program).after count).exhausted = true ↔ 0 < ends)
  ops : (ofEvents program).answeredOps count = operations (delivered read)
  offset : ((ofEvents program).after count).offset = byteCount read
  /-- Behind an operation the offset is one more than the number of bytes before its own. -/
  located : ∀ earlier op, (ofEvents program).answers count = earlier ++ [.ok (some op)] →
    ∃ front, read = front ++ [.byte op.byte] ∧
      ((ofEvents program).after count).offset = byteCount front + 1
  goes : ((ofEvents program).after count).exhausted = false → .endOfStream ∉ read
  /-- The end that is met is the first one, and the last event consumed. A stream without one ends
  where its events do. -/
  met : ((ofEvents program).after count).exhausted = true →
    EndMet read ((ofEvents program).after count).events
  rests : ((ofEvents program).after count).exhausted = true → ∀ more,
    (ofEvents program).after (count + more) = (ofEvents program).after count ∧
      ((ofEvents program).after count).answers more = List.replicate more (.ok none)

/-- Whatever a stream holds, and however often its source is called, the answers are the operations
and the failures before its first end, each once and in order, and then the end for ever. -/
theorem answersFor_calls (program : List ReadEvent) (count : Nat) :
    ∃ read, AnswersFor program read count := by
  obtain ⟨read, ends, h⟩ := exists_answered program count
  refine ⟨read, h.split, ⟨ends, h.answers_eq, h.exhausted_iff⟩, ?_, h.offset, ?_, h.goes, h.met, ?_⟩
  · rw [answeredOps, h.answers_eq, List.filterMap_append, filterMap_outcomes]
    simp [answeredOp?]
  · intro earlier op hlast
    obtain ⟨front, hfront⟩ := h.located earlier op hlast
    refine ⟨front, hfront, ?_⟩
    rw [h.offset, hfront, byteCount_append]
    rfl
  · intro hexhausted more
    obtain ⟨hafter, hanswers⟩ := rests_of_exhausted hexhausted more
    exact ⟨by rw [after_add, hafter], hanswers⟩

/-- A failure in the middle, an interruption and a comment, then two calls behind the end. -/
example : (ofEvents [.byte 43, .failure ⟨"reset"⟩, .interrupted, .byte 35, .byte 45]).answers 5
    = [.ok (some .increment), .error (.unavailable .program ⟨"reset"⟩), .ok (some .decrement),
      .ok none, .ok none] := by decide

end Source

end TapeMachine
