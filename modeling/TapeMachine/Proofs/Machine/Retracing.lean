import TapeMachine.Proofs.Machine.Accounting
import TapeMachine.Proofs.Machine.TextIndex

/-!
# A run retraced from its reports

What a machine reports is enough to do its work again. The operations reported, executed one after
another on a fresh tape, come to the tape and the output of the machine, and each of them finds the
cursor and the cell that it was reported with. The position in a report tells where in the text the
operation stands: outside every loop entered it is zero, and otherwise it counts from the opening
bracket of the top-level loop.
-/

namespace TapeMachine

open Brackets Listing

namespace Straight

variable {config : Config} {s : Straight}

/-- Each operation reported finds the cursor and the cell that it was reported with, if the ones
before it are executed in order. -/
def Confirms (config : Config) : Straight → List Event → Prop
  | _, [] => True
  | s, .dispatch op _ cursor cell :: rest =>
    s.tape.cursor = cursor ∧ s.tape.current = cell ∧ Confirms config (s.apply config op) rest
  | s, .enterLoop .. :: rest => Confirms config s rest
  | s, .leaveLoop .. :: rest => Confirms config s rest
  | s, .endedInsideLoop .. :: rest => Confirms config s rest
  | s, .finished .. :: rest => Confirms config s rest

theorem applyAll_append (config : Config) (s : Straight) (first second : List Op) :
    s.applyAll config (first ++ second) = (s.applyAll config first).applyAll config second :=
  List.foldl_append

theorem confirms_append (first second : List Event) : s.Confirms config (first ++ second) ↔
    s.Confirms config first ∧
      (s.applyAll config (first.filterMap Event.op?)).Confirms config second := by
  induction first generalizing s with
  | nil => simp [Confirms, applyAll]
  | cons e first ih =>
    cases e with
    | dispatch op position cursor cell =>
      simp only [List.cons_append, Confirms, ih, and_assoc]
      rfl
    | enterLoop | leaveLoop | endedInsideLoop | finished => exact ih

/-- Reports on loops alone confirm nothing. -/
theorem confirms_of_op? {events : List Event} (h : events.filterMap Event.op? = []) :
    s.Confirms config events := by
  induction events with
  | nil => trivial
  | cons e rest ih =>
    cases e with
    | dispatch => simp [Event.op?] at h
    | enterLoop | leaveLoop | endedInsideLoop | finished => exact ih h

end Straight

namespace Machine

/-- What straight execution works on, as a machine has it. -/
def straight (m : Machine) : Straight := ⟨m.tape, m.input, m.sink.bytes⟩

variable {m : Machine} {op : Op} {count : Nat}

@[simp] theorem straight_counted (m : Machine) : m.counted.straight = m.straight := by
  simp [straight]

/-- An operation that does not fail does what straight execution makes of it. -/
theorem straight_execute (h : (m.execute op).fault = none) :
    (m.execute op).machine.straight = m.straight.apply m.config op := by
  cases op with
  | increment | decrement => rfl
  | right | left =>
    rw [execute, moveCursor] at h ⊢
    rw [Straight.apply, straight, straight]
    rcases hmove : m.tape.move _ with ⟨fault | _, tape⟩
    all_goals rw [hmove] at h
    · simp [Step.failed] at h
    · rfl
  | input =>
    rw [execute, readInput] at h ⊢
    rw [Straight.apply, straight, straight]
    rcases hread : readByte m.input with ⟨error | value, input⟩
    all_goals rw [hread] at h
    · simp [Step.failed] at h
    · rfl
  | output =>
    have hputs := Sink.puts_put m.tape.current m.sink
    simp only [execute, writeOutput] at h ⊢
    generalize m.sink.put m.tape.current = outcome at h hputs
    cases hputs with
    | refused | unflushed => simp [Step.failed] at h
    | flushed => rfl
  | loopOpen =>
    rw [execute, enterLoop_same]
    rfl
  | loopClose =>
    rw [execute, closeLoop_same]
    rfl

theorem straight_step (h : m.step.machine.mode ≠ .halted) :
    m.step.machine.straight = m.straight.applyAll m.config m.executed?.toList := by
  cases hexecuted : m.executed? with
  | none =>
    rw [(idles_of_unexecuted hexecuted).same]
    rfl
  | some op =>
    have hfault : m.step.fault = none := by
      rw [Option.eq_none_iff_forall_ne_some]
      exact fun fault hfault => h (mode_of_fault hfault)
    rw [step_of_executed hexecuted] at hfault ⊢
    dsimp only at hfault ⊢
    rw [straight_execute hfault, straight_counted, config_counted]
    rfl

theorem config_step (m : Machine) : m.step.machine.config = m.config := by
  cases hexecuted : m.executed? with
  | none => rw [(idles_of_unexecuted hexecuted).same]
  | some op =>
    rw [step_of_executed hexecuted]
    dsimp only
    rw [execute_same, config_counted]

theorem config_after (count : Nat) (m : Machine) : (m.after count).config = m.config := by
  induction count with
  | zero => rfl
  | succ count ih => rw [after_succ_eq_step, config_step, ih]

/-- As long as a machine goes on, straight execution of what it reports does the same. -/
theorem straight_after (h : (m.after count).mode ≠ .halted) :
    (m.after count).straight = m.straight.applyAll m.config (m.dispatchedOps count) := by
  induction count with
  | zero => rfl
  | succ count ih =>
    rw [after_succ_eq_step] at h ⊢
    rw [straight_step h, ih (mode_ne_halted_of_step h), config_after, dispatchedOps_succ,
      Straight.applyAll_append]

theorem confirms_step (m : Machine) : m.straight.Confirms m.config m.step.events := by
  cases hexecuted : m.executed? with
  | none =>
    refine Straight.confirms_of_op? ?_
    rw [ops_step, hexecuted]
    rfl
  | some op =>
    have htape : m.fetch.2.tape = m.tape := tape_counted m
    rw [step_of_executed hexecuted]
    refine ⟨?_, ?_, Straight.confirms_of_op? (ops_execute hexecuted)⟩
    · rw [htape]
      rfl
    · rw [htape]
      rfl

theorem confirms_eventsOf (count : Nat) (m : Machine) :
    m.straight.Confirms m.config (m.eventsOf count) := by
  induction count with
  | zero => trivial
  | succ count ih =>
    rw [eventsOf_succ_eq_append, Straight.confirms_append]
    refine ⟨ih, ?_⟩
    by_cases hgoes : (m.after count).mode = .halted
    · rw [step_of_halted hgoes]
      trivial
    · have hstep := confirms_step (m.after count)
      rwa [straight_after hgoes, config_after] at hstep

/-- The step fails in the execution of an operation that it has reported. -/
def FailsDispatched (m : Machine) : Prop := m.step.fault ≠ none ∧ m.dispatchedOps 1 ≠ []

theorem dispatchedOps_one (m : Machine) : m.dispatchedOps 1 = m.executed?.toList :=
  dispatchedOps_succ 0 m

/-- An operation that halts the machine has failed. -/
theorem failsDispatched_of_halts (hexecuted : m.executed? = some op)
    (hhalts : m.step.machine.mode = .halted) : m.FailsDispatched := by
  have hmode := (executed?_eq_some_iff.mp hexecuted).1
  refine ⟨?_, by simp [dispatchedOps_one, hexecuted]⟩
  have hreports := reports_step m
  generalize m.step = s at hhalts hreports
  cases hreports with
  | idles hnone =>
    rw [hexecuted] at hnone
    simp at hnone
  | plain _ _ hkeeps =>
    intro hfault
    rw [hkeeps.mode hfault, mode_counted, hmode] at hhalts
    simp at hhalts
  | opens _ hopens => cases hopens <;> simp [Step.quiet, hmode] at hhalts
  | closes _ hcloses =>
    cases hcloses with
    | unmatched => simp [Step.failed]
    | again | leavesInner => simp [Step.quiet, hmode] at hhalts
    | leavesOutermost => simp [hmode] at hhalts

/-- A loop has been entered in one of the steps made, and since then no top-level loop has been
left. -/
def InsideLoop (m : Machine) (count : Nat) : Prop :=
  ∃ entry < count, (∃ position depth, .enterLoop position depth ∈ (m.after entry).step.events) ∧
    ∀ later, entry < later → later < count →
      ∀ recorded, .leaveLoop recorded ∉ (m.after later).step.events

theorem insideLoop_succ_iff : m.InsideLoop (count + 1) ↔
    (∃ position depth, .enterLoop position depth ∈ (m.after count).step.events) ∨
      m.InsideLoop count ∧ ∀ recorded, .leaveLoop recorded ∉ (m.after count).step.events := by
  constructor
  · rintro ⟨entry, hlt, henters, hstays⟩
    rcases Nat.lt_succ_iff_lt_or_eq.mp hlt with hlt | rfl
    · exact Or.inr ⟨⟨entry, hlt, henters, fun later hafter hbefore =>
        hstays later hafter (Nat.lt_succ_of_lt hbefore)⟩, hstays count hlt (Nat.lt_succ_self count)⟩
    · exact Or.inl henters
  · rintro (henters | ⟨⟨entry, hlt, henters, hstays⟩, hlast⟩)
    · exact ⟨count, Nat.lt_succ_self count, henters, fun later hafter hbefore => by omega⟩
    · refine ⟨entry, Nat.lt_succ_of_lt hlt, henters, fun later hafter hbefore => ?_⟩
      rcases Nat.lt_succ_iff_lt_or_eq.mp hbefore with hbefore | rfl
      · exact hstays later hafter hbefore
      · exact hlast

/-- Operations are recorded inside loops only. -/
theorem recording_after_iff (h : m.recording.ops = #[]) (count : Nat) :
    (m.after count).recording.ops ≠ #[] ↔ m.InsideLoop count := by
  induction count with
  | zero => simp [h, InsideLoop]
  | succ count ih => rw [after_succ_eq_step, recording_step_iff, ih, insideLoop_succ_iff]

/-- Straight execution has come to the tape of the machine, and has put out the bytes that the
machine has counted. -/
structure ArrivesAt (s : Straight) (m : Machine) : Prop where
  tape : s.tape = m.tape
  output : s.output.toList = m.sink.bytes.toList.take m.outputBytes
  outputBytes : s.output.size = m.outputBytes

/-- Where in the text an operation stands that is reported with a position. -/
structure Locates (program : List ReadEvent) (start : Machine) (made : Nat) (op : Op)
    (position : Nat) : Prop where
  getElem?_eq : (operations (delivered program))[
    textIndex (operations (delivered program)) start made]? = some op
  position_eq_zero_iff : position = 0 ↔ ¬start.InsideLoop made
  outside : position = 0 → Balanced ((operations (delivered program)).take
    (textIndex (operations (delivered program)) start made))
  /-- Counted from the opening bracket of the top-level loop on, the operation is the one before the
  position. -/
  inside : position ≠ 0 → ∃ outer,
    TopLevelLoop (operations (delivered program)) outer
        (textIndex (operations (delivered program)) start made) ∧
      textIndex (operations (delivered program)) start made = outer + (position - 1) ∧
      (operations (delivered program))[outer + (position - 1)]? = some op

/-- What the reports of a number of steps tell about the machine after them. -/
structure Retraces (config : Config) (program input : List ReadEvent) (start : Machine)
    (count : Nat) (m : Machine) : Prop where
  steps : (start.dispatchedOps count).length = m.steps
  confirmed : (Straight.initial config input).Confirms config (start.eventsOf count)
  succeeded : (∀ made < count, ¬(start.after made).FailsDispatched) →
    ArrivesAt ((Straight.initial config input).applyAll config (start.dispatchedOps count)) m
  /-- The last operation has failed. -/
  failed : (∃ made < count, (start.after made).FailsDispatched) →
    ArrivesAt
      ((Straight.initial config input).applyAll config (start.dispatchedOps count).dropLast) m
  located : ∀ made op position cursor cell,
    .dispatch op position cursor cell ∈ (start.after made).step.events →
      Locates program start made op position

section Run

variable {program read : List ReadEvent} {before : List Op} {depth position cursor : Nat}
  {cell : UInt8} {start : Machine}

theorem StandsAt.locates (h : StandsAt program start count read before depth m)
    (hrecorded : m.recording.ops ≠ #[] ↔ start.InsideLoop count)
    (hdispatch : .dispatch op position cursor cell ∈ m.step.events) :
    Locates program start count op position := by
  obtain ⟨hexecuted, hposition, -, -⟩ := mem_dispatch hdispatch
  obtain ⟨outside, hat⟩ := h.executesAt hexecuted
  have hlength := hat.length_before
  rw [← hposition] at hlength
  have hzero : position = 0 ↔ m.fetch.2.recording.ops = #[] := by
    constructor
    · intro heq
      by_contra hactive
      have hpos := (hat.fetched.inside hactive).2.2.1
      omega
    · intro hinactive
      have hle := hat.fetched.cursor_le
      rw [hinactive] at hle
      rw [hposition]
      exact Nat.eq_zero_of_le_zero hle
  refine ⟨hat.getElem?_eq, ?_, fun heq => hat.balanced (hzero.mp heq), fun hne => ?_⟩
  · rw [hzero, recording_fetch_eq_empty_iff, ← hrecorded, not_not]
  · have hindex : textIndex (operations (delivered program)) start count
        = outside.length + (position - 1) := by omega
    refine ⟨outside.length, hat.topLevelLoop fun heq => hne (hzero.mpr heq), hindex, ?_⟩
    rw [← hindex]
    exact hat.getElem?_eq

theorem arrivesAt_straight (h : m.sink.bytes.size = m.outputBytes) : ArrivesAt m.straight m where
  tape := rfl
  output := by rw [← h, ← Array.length_toList, List.take_length]; rfl
  outputBytes := h

/-- A step that executes nothing leaves the machine where straight execution has come to. -/
theorem ArrivesAt.idles {s : Straight} (h : ArrivesAt s m) (hnone : m.executed? = none) :
    ArrivesAt s m.step.machine := by
  rw [(idles_of_unexecuted hnone).same]
  exact ⟨h.tape, h.output, h.outputBytes⟩

/-- An operation that fails leaves it there too: a byte that it put out has not been counted. -/
theorem ArrivesAt.fails {s : Straight} {fault : Fault} {m' : Machine} (h : ArrivesAt s m)
    (hsize : m.sink.bytes.size = m.outputBytes) (hfails : FailsAtomically fault m m') :
    ArrivesAt s m' := by
  refine ⟨by rw [hfails.tape, h.tape], ?_, by rw [hfails.outputBytes, h.outputBytes]⟩
  rw [hfails.outputBytes, h.output]
  by_cases hflush : m.FlushFails
  · rw [hfails.bytes_of_flushFails hflush, Array.toList_push,
      List.take_append_of_le_length (by rw [Array.length_toList, hsize])]
  · rw [hfails.bytes hflush]

theorem dispatchedOps_of_halted_le {later : Nat} (h : (m.after count).mode = .halted)
    (hle : count ≤ later) : m.dispatchedOps later = m.dispatchedOps count := by
  rw [dispatchedOps, eventsOf_of_halted_le h hle, ← dispatchedOps]

section Counted

variable (hcounted : ∀ made, (start.after made).mode ≠ .halted →
  (start.after made).sink.bytes.size = (start.after made).outputBytes)

include hcounted

theorem arrivesAt_of_goes (hgoes : (start.after count).mode ≠ .halted) :
    ArrivesAt (start.straight.applyAll start.config (start.dispatchedOps count))
      (start.after count) := by
  rw [← straight_after hgoes]
  exact arrivesAt_straight (hcounted count hgoes)

theorem arrivesAt_of_succeeded (hbegins : start.mode ≠ .halted)
    (h : ∀ made < count, ¬(start.after made).FailsDispatched) :
    ArrivesAt (start.straight.applyAll start.config (start.dispatchedOps count))
      (start.after count) := by
  by_cases hgoes : (start.after count).mode = .halted
  · obtain ⟨last, hlt, hlast, hhalts⟩ := exists_halting_step hbegins hgoes
    cases hexecuted : (start.after last).executed? with
    | some op => exact absurd (failsDispatched_of_halts hexecuted hhalts) (h last hlt)
    | none =>
      have harrives := (arrivesAt_of_goes hcounted hlast).idles hexecuted
      rw [← after_succ_eq_step] at hhalts harrives
      rwa [after_of_halted_le hhalts hlt, dispatchedOps_of_halted_le hhalts hlt, dispatchedOps_succ,
        hexecuted, Option.toList_none, List.append_nil]
  · exact arrivesAt_of_goes hcounted hgoes

theorem arrivesAt_of_failed {made : Nat} {fault : Fault} (hlt : made < count)
    (h : (start.after made).FailsDispatched)
    (hfails : FailsAtomically fault (start.after made) (start.after made).step.machine) :
    ArrivesAt (start.straight.applyAll start.config (start.dispatchedOps count).dropLast)
      (start.after count) := by
  obtain ⟨hfault, hops⟩ := h
  obtain ⟨cause, hcause⟩ := Option.ne_none_iff_exists'.mp hfault
  have hgoes := mode_ne_halted_of_fault hcause
  have hhalts := mode_of_fault hcause
  have harrives := (arrivesAt_of_goes hcounted hgoes).fails (hcounted made hgoes) hfails
  rw [dispatchedOps_one, ne_eq, Option.toList_eq_nil_iff] at hops
  obtain ⟨op, hop⟩ := Option.ne_none_iff_exists'.mp hops
  rw [← after_succ_eq_step] at hhalts harrives
  rwa [after_of_halted_le hhalts hlt, dispatchedOps_of_halted_le hhalts hlt, dispatchedOps_succ,
    hop, Option.toList_some, List.dropLast_concat]

end Counted

end Run

/-- The reports of a run account for the whole of it. -/
theorem retraces_after (config : Config) (program input : List ReadEvent)
    (writes : List WriteReply) (flushes : List FlushReply) (count : Nat) :
    Retraces config program input (initial config program input (.ofReplies writes flushes)) count
      ((initial config program input (.ofReplies writes flushes)).after count) := by
  have hcounted : ∀ made,
      ((initial config program input (.ofReplies writes flushes)).after made).mode ≠ .halted → _ :=
    fun made hgoes => counted_after rfl hgoes
  have hstands := standsAt_of_mode config program input (.ofReplies writes flushes)
  have hrecorded := recording_after_iff
    (m := initial config program input (.ofReplies writes flushes)) rfl
  refine ⟨?_, ?_, fun hnever => ?_, fun hfails => ?_,
    fun made op position cursor cell hdispatch => ?_⟩
  · have hsteps := length_dispatchedOps count
      (initial config program input (.ofReplies writes flushes))
    exact (Nat.zero_add _).symm.trans hsteps
  · exact confirms_eventsOf count (initial config program input (.ofReplies writes flushes))
  · exact arrivesAt_of_succeeded hcounted (by simp [initial]) hnever
  · obtain ⟨made, hlt, hfailed⟩ := hfails
    obtain ⟨fault, hfault⟩ := Option.ne_none_iff_exists'.mp hfailed.1
    obtain ⟨read, before, depth, hat⟩ := hstands made (mode_ne_halted_of_fault hfault)
    exact arrivesAt_of_failed hcounted hlt hfailed (hat.toRepresents.failsAtomically hfault)
  · have hexecuted := (mem_dispatch hdispatch).1
    obtain ⟨read, before, depth, hat⟩ :=
      hstands made (by simp [(executed?_eq_some_iff.mp hexecuted).1])
    exact hat.locates (hrecorded made) hdispatch

/-- The body of a loop is executed a second time. -/
theorem retraces_after_loop :
    .dispatch .decrement 2 1 1 ∈ ((initial { tapeSize := 3 } ([43, 43, 91, 45, 93].map .byte) []
        (.ofReplies [] [])).after 6).step.events ∧
      Locates ([43, 43, 91, 45, 93].map .byte) (initial { tapeSize := 3 }
        ([43, 43, 91, 45, 93].map .byte) [] (.ofReplies [] [])) 6 .decrement 2 := by
  have hreported : .dispatch .decrement 2 1 1 ∈ ((initial { tapeSize := 3 }
      ([43, 43, 91, 45, 93].map .byte) [] (.ofReplies [] [])).after 6).step.events := by
    decide
  exact ⟨hreported, (retraces_after { tapeSize := 3 } ([43, 43, 91, 45, 93].map .byte) [] [] []
    7).located 6 .decrement 2 1 1 hreported⟩

end Machine

end TapeMachine
