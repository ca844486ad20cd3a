import TapeMachine.Proofs.Machine.Reports
import TapeMachine.Proofs.Machine.Untouched

/-!
# What a step reports

A step that executes an operation reports the operation first, and then the loop that it enters or
leaves; any other step reports no more than the end of the program. What a step reports is told here
together with what it does to the loops entered and to the recording.
-/

namespace TapeMachine

/-- The event reports that a loop is entered. -/
def Event.entersLoop : Event → Bool
  | enterLoop .. => true
  | _ => false

namespace Machine

open Brackets

variable {m : Machine} {op : Op} {position depth cursor recorded : Nat} {cell : UInt8}

/-- The operation that the next step executes, if it executes one. -/
def executed? (m : Machine) : Option Op :=
  match m.mode, m.fetch.1 with
  | .running, .ok (some op) => some op
  | _, _ => none

/-- The machine that has fetched an operation, counted it, and is to execute it. -/
def counted (m : Machine) : Machine := { m.fetch.2 with steps := m.fetch.2.steps + 1 }

theorem executed?_eq_some_iff :
    m.executed? = some op ↔ m.mode = .running ∧ m.fetch.1 = .ok (some op) := by
  unfold executed?
  rcases m.mode with _ | _ | _ <;> rcases m.fetch.1 with _ | _ | _ <;> simp

@[simp] theorem tape_counted (m : Machine) : m.counted.tape = m.tape := by
  rw [counted, fetch_same]

@[simp] theorem input_counted (m : Machine) : m.counted.input = m.input := by
  rw [counted, fetch_same]

@[simp] theorem sink_counted (m : Machine) : m.counted.sink = m.sink := by
  rw [counted, fetch_same]

@[simp] theorem loops_counted (m : Machine) : m.counted.loops = m.loops := by
  rw [counted, fetch_same]

@[simp] theorem mode_counted (m : Machine) : m.counted.mode = m.mode := by
  rw [counted, fetch_same]

@[simp] theorem config_counted (m : Machine) : m.counted.config = m.config := by
  rw [counted, fetch_same]

@[simp] theorem outputBytes_counted (m : Machine) : m.counted.outputBytes = m.outputBytes := by
  rw [counted, fetch_same]

@[simp] theorem steps_counted (m : Machine) : m.counted.steps = m.steps + 1 := by
  rw [counted, fetch_same]

theorem step_of_executed (h : m.executed? = some op) : m.step = { m.counted.execute op with
    events := m.fetch.2.dispatched op :: (m.counted.execute op).events } := by
  obtain ⟨hmode, hfetch⟩ := executed?_eq_some_iff.mp h
  rcases hresult : m.fetch with ⟨result, m'⟩
  rw [hresult] at hfetch
  dsimp only at hfetch
  rw [hfetch] at hresult
  rw [step_of_running hmode, executeNext_of_op hresult, counted, hresult]

/-- A step that executes nothing. -/
inductive Idles (m : Machine) : Step → Prop where
  | rests : Idles m (.quiet m)
  | fails (fault : Fault) : Idles m (.failed fault m.fetch.2)
  | ends (unclosed : Nat) : Idles m (.ended unclosed m.fetch.2)
  | skips (depth : Nat) : Idles m (.quiet { m.fetch.2 with mode := .within depth })

theorem idles_of_unexecuted (h : m.executed? = none) : m.Idles m.step := by
  cases hmode : m.mode with
  | halted =>
    rw [step_of_halted hmode]
    exact .rests
  | running =>
    rcases hfetch : m.fetch with ⟨fault | _ | op, m'⟩
    all_goals have hmachine : m.fetch.2 = m' := by rw [hfetch]
    · simp only [step, hmode, executeNext, hfetch]
      exact hmachine ▸ .fails fault
    · simp only [step, hmode, executeNext, hfetch]
      exact hmachine ▸ .ends _
    · rw [executed?_eq_some_iff.mpr ⟨hmode, by rw [hfetch]⟩] at h
      simp at h
  | skipping depth =>
    rcases hfetch : m.fetch with ⟨fault | _ | op, m'⟩
    all_goals
      have hmachine : m.fetch.2 = m' := by rw [hfetch]
      simp only [step, hmode, skipNext, hfetch]
    · exact hmachine ▸ .fails fault
    · exact hmachine ▸ .ends _
    · exact hmachine ▸ .skips _

/-- A step that executes nothing reports at most the end of the program. -/
theorem Idles.events {s : Step} (h : m.Idles s) :
    ∀ e ∈ s.events, ∃ unclosed, e = .endedInsideLoop unclosed := by
  intro e he
  cases h with
  | rests | fails | skips => simp [Step.quiet, Step.failed] at he
  | ends unclosed =>
    unfold Step.ended at he
    split at he
    · simp at he
    · exact ⟨unclosed, by simpa using he⟩

/-- All that a step can change that executes nothing. -/
theorem Idles.same {s : Step} (h : m.Idles s) : s.machine = { m with
    recording := s.machine.recording
    source := s.machine.source
    mode := s.machine.mode
    unclosedLoops := s.machine.unclosedLoops } := by
  have hsame := fetch_same m
  generalize m.fetch.2.recording = recording, m.fetch.2.source = source at hsame
  cases h with
  | rests => rfl
  | fails | ends | skips =>
    simp only [Step.failed, Step.ended, Step.quiet]
    rw [hsame]

/-- A fetch neither starts nor ends a recording. -/
theorem recording_fetch_eq_empty_iff : m.fetch.2.recording.ops = #[] ↔ m.recording.ops = #[] := by
  by_cases hlt : m.recording.cursor < m.recording.ops.size
  · rw [fetch_of_lt hlt]
  · rw [fetch_of_size_le (Nat.le_of_not_lt hlt)]
    unfold Recording.noting
    dsimp only
    split
    · split
      · next hactive =>
        have hrecorded : m.recording.ops ≠ #[] := by simpa [Recording.isActive] using hactive
        simp [hrecorded]
      · rfl
    · rfl

/-- How an opening bracket is executed. -/
inductive Opens (m : Machine) : Step → Prop where
  | passesOver (hcell : m.tape.current = 0) : Opens m (.quiet { m with mode := .skipping 1 })
  | enters (hcell : m.tape.current ≠ 0) (hactive : m.recording.ops ≠ #[]) :
    Opens m ⟨{ m with loops := m.loops.push m.recording.lastPosition }, none,
      [.enterLoop m.recording.lastPosition (m.loops.depth + 1)]⟩
  | starts (hcell : m.tape.current ≠ 0) (hinactive : m.recording.ops = #[]) :
    Opens m ⟨{ m with recording := .start .loopOpen, loops := m.loops.push 0 }, none,
      [.enterLoop 0 (m.loops.depth + 1)]⟩

theorem opens_enterLoop (m : Machine) : m.Opens m.enterLoop := by
  by_cases hcell : m.tape.current = 0
  · rw [enterLoop_of_zero hcell]
    exact .passesOver hcell
  · by_cases hinactive : m.recording.ops = #[]
    · rw [enterLoop_of_inactive hcell hinactive, LoopStack.depth_push]
      exact .starts hcell hinactive
    · rw [enterLoop_of_active hcell hinactive, LoopStack.depth_push]
      exact .enters hcell hinactive

/-- How a closing bracket is executed. -/
inductive Closes (m : Machine) : Step → Prop where
  | unmatched (hloops : m.loops.positions = #[]) :
    Closes m (.failed (.unmatchedClose (m.source.offset - 1)) m)
  | again {below : List Nat} {position : Nat}
    (hloops : m.loops.positions.toList = below ++ [position]) (hcell : m.tape.current ≠ 0) :
    Closes m (.quiet
      { m with loops := ⟨below.toArray⟩, recording := m.recording.rewind position })
  | leavesInner {below : List Nat} {position : Nat}
    (hloops : m.loops.positions.toList = below ++ [position]) (hcell : m.tape.current = 0)
    (hbelow : below ≠ []) : Closes m (.quiet { m with loops := ⟨below.toArray⟩ })
  | leavesOutermost {position : Nat} (hloops : m.loops.positions.toList = [position])
    (hcell : m.tape.current = 0) :
    Closes m ⟨{ m with loops := ⟨#[]⟩, recording := .empty }, none,
      [.leaveLoop m.recording.size]⟩

theorem closes_closeLoop (m : Machine) : m.Closes m.closeLoop := by
  rcases List.eq_nil_or_concat m.loops.positions.toList with hnil | ⟨below, position, hsplit⟩
  · have hloops : m.loops.positions = #[] := by simpa using hnil
    rw [closeLoop_of_empty hloops]
    exact .unmatched hloops
  · rw [List.concat_eq_append] at hsplit
    by_cases hcell : m.tape.current = 0
    · by_cases hbelow : below = []
      · subst hbelow
        rw [closeLoop_of_outermost hsplit hcell]
        exact .leavesOutermost hsplit hcell
      · rw [closeLoop_of_inner hsplit hcell hbelow]
        exact .leavesInner hsplit hcell hbelow
    · rw [closeLoop_of_ne hsplit hcell]
      exact .again hsplit hcell

theorem events_execute_of_plain (hp : Plain op) (m : Machine) : (m.execute op).events = [] := by
  cases op with
  | increment | decrement => rfl
  | right | left =>
    simp only [execute, moveCursor]
    split <;> rfl
  | input =>
    simp only [execute, readInput]
    split <;> rfl
  | output =>
    simp only [execute, writeOutput]
    split <;> rfl
  | loopOpen => exact absurd rfl hp.1
  | loopClose => exact absurd rfl hp.2

/-- What a step reports first, and what it does then. -/
inductive Reports (m : Machine) : Step → Prop where
  | idles {s : Step} (hexecuted : m.executed? = none) (h : m.Idles s) : Reports m s
  | plain {op : Op} {s : Step} (hexecuted : m.executed? = some op) (hp : Plain op)
    (hkeeps : m.counted.Keeps s) (hevents : s.events = [m.fetch.2.dispatched op]) : Reports m s
  | opens {s : Step} (hexecuted : m.executed? = some .loopOpen) (h : m.counted.Opens s) :
    Reports m { s with events := m.fetch.2.dispatched .loopOpen :: s.events }
  | closes {s : Step} (hexecuted : m.executed? = some .loopClose) (h : m.counted.Closes s) :
    Reports m { s with events := m.fetch.2.dispatched .loopClose :: s.events }

theorem reports_step (m : Machine) : m.Reports m.step := by
  cases hexecuted : m.executed? with
  | none => exact .idles hexecuted (idles_of_unexecuted hexecuted)
  | some op =>
    rw [step_of_executed hexecuted]
    cases op using bracketCases with
    | opening => exact .opens hexecuted (opens_enterLoop m.counted)
    | closing => exact .closes hexecuted (closes_closeLoop m.counted)
    | plain op hp =>
      obtain ⟨hrecording, hloops, hsource, hsteps, hmode, hfault⟩ := keeps_execute hp m.counted
      refine .plain hexecuted hp ⟨hrecording, hloops, hsource, hsteps, hmode, hfault⟩ ?_
      rw [events_execute_of_plain hp]

/-- A step reports the operation that it executes. -/
theorem ops_step (m : Machine) : m.step.events.filterMap Event.op? = m.executed?.toList := by
  have hreports := reports_step m
  generalize m.step = s at hreports
  cases hreports with
  | idles hexecuted h =>
    rw [hexecuted, Option.toList_none, List.filterMap_eq_nil_iff]
    intro e he
    obtain ⟨unclosed, rfl⟩ := h.events e he
    rfl
  | plain hexecuted _ _ hevents =>
    rw [hexecuted, hevents]
    rfl
  | opens hexecuted h =>
    rw [hexecuted]
    cases h <;> rfl
  | closes hexecuted h =>
    rw [hexecuted]
    cases h <;> rfl

/-- Behind the operation itself only loops are reported. -/
theorem ops_execute (h : m.executed? = some op) :
    (m.counted.execute op).events.filterMap Event.op? = [] := by
  have hops := ops_step m
  rw [step_of_executed h, h] at hops
  exact (List.cons.inj hops).2

theorem mem_dispatch (h : .dispatch op position cursor cell ∈ m.step.events) :
    m.executed? = some op ∧ position = m.fetch.2.recording.cursor ∧ cursor = m.tape.cursor ∧
      cell = m.tape.current := by
  have hop : op ∈ m.executed?.toList := by
    rw [← ops_step]
    exact List.mem_filterMap.mpr ⟨_, h, rfl⟩
  have hexecuted : m.executed? = some op := Option.mem_toList.mp hop
  rw [step_of_executed hexecuted, List.mem_cons] at h
  rcases h with heq | hlater
  · have htape : m.fetch.2.tape = m.tape := tape_counted m
    obtain ⟨-, hposition, hcursor, hcell⟩ := Event.dispatch.inj heq
    rw [htape] at hcursor hcell
    exact ⟨hexecuted, hposition, hcursor, hcell⟩
  · have hnone := List.filterMap_eq_nil_iff.mp (ops_execute hexecuted) _ hlater
    simp [Event.op?] at hnone

theorem mem_enterLoop (h : .enterLoop position depth ∈ m.step.events) :
    m.executed? = some .loopOpen ∧ m.tape.current ≠ 0 ∧ depth = m.loops.depth + 1 ∧
      (m.fetch.2.recording.ops ≠ #[] ∧ position = m.fetch.2.recording.lastPosition ∨
        m.fetch.2.recording.ops = #[] ∧ position = 0) := by
  have hreports := reports_step m
  generalize m.step = s at h hreports
  cases hreports with
  | idles _ hidles =>
    obtain ⟨unclosed, heq⟩ := hidles.events _ h
    simp at heq
  | plain _ _ _ hevents => simp [hevents, dispatched] at h
  | closes _ hcloses => cases hcloses <;> simp [dispatched, Step.quiet, Step.failed] at h
  | opens hexecuted hopens =>
    cases hopens with
    | passesOver => simp [dispatched, Step.quiet] at h
    | enters hcell hactive =>
      rw [tape_counted] at hcell
      obtain ⟨hposition, hdepth⟩ : position = _ ∧ depth = _ := by simpa [dispatched] using h
      exact ⟨hexecuted, hcell, hdepth, Or.inl ⟨hactive, hposition⟩⟩
    | starts hcell hinactive =>
      rw [tape_counted] at hcell
      obtain ⟨hposition, hdepth⟩ : position = _ ∧ depth = _ := by simpa [dispatched] using h
      exact ⟨hexecuted, hcell, hdepth, Or.inr ⟨hinactive, hposition⟩⟩

theorem mem_leaveLoop (h : .leaveLoop recorded ∈ m.step.events) :
    m.executed? = some .loopClose ∧ m.tape.current = 0 ∧
      recorded = m.fetch.2.recording.size ∧
        ∃ position, m.loops.positions.toList = [position] := by
  have hreports := reports_step m
  generalize m.step = s at h hreports
  cases hreports with
  | idles _ hidles =>
    obtain ⟨unclosed, heq⟩ := hidles.events _ h
    simp at heq
  | plain _ _ _ hevents => simp [hevents, dispatched] at h
  | opens _ hopens => cases hopens <;> simp [dispatched, Step.quiet] at h
  | closes hexecuted hcloses =>
    cases hcloses with
    | unmatched => simp [dispatched, Step.failed] at h
    | again | leavesInner => simp [dispatched, Step.quiet] at h
    | leavesOutermost hloops hcell =>
      rw [tape_counted] at hcell
      rw [loops_counted] at hloops
      have hrecorded : recorded = m.counted.recording.size := by simpa [dispatched] using h
      exact ⟨hexecuted, hcell, hrecorded, _, hloops⟩

/-- Only brackets that enter or leave a loop start or end a recording. -/
theorem Idles.recording {s : Step} (h : m.Idles s) :
    s.machine.recording.ops = #[] ↔ m.recording.ops = #[] := by
  cases h with
  | rests => rfl
  | fails | ends | skips => exact recording_fetch_eq_empty_iff

/-- A recording is started by a loop that is entered, and lasts until the outermost is left. -/
theorem recording_step_iff : m.step.machine.recording.ops ≠ #[] ↔
    (∃ position depth, .enterLoop position depth ∈ m.step.events) ∨
      m.recording.ops ≠ #[] ∧ ∀ recorded, .leaveLoop recorded ∉ m.step.events := by
  have hfetched : m.counted.recording.ops = #[] ↔ m.recording.ops = #[] :=
    recording_fetch_eq_empty_iff
  have hreports := reports_step m
  generalize m.step = s at hreports
  cases hreports with
  | idles _ hidles =>
    have henters : ∀ position depth, .enterLoop position depth ∉ s.events := by
      intro position depth hmem
      obtain ⟨unclosed, heq⟩ := hidles.events _ hmem
      simp at heq
    have hleaves : ∀ recorded, .leaveLoop recorded ∉ s.events := by
      intro recorded hmem
      obtain ⟨unclosed, heq⟩ := hidles.events _ hmem
      simp at heq
    simp [henters, hleaves, hidles.recording]
  | plain _ _ hkeeps hevents => simp [hevents, dispatched, hkeeps.recording, hfetched]
  | opens _ hopens =>
    cases hopens with
    | passesOver => simp [dispatched, Step.quiet, hfetched]
    | enters _ hactive => simp [dispatched, hactive]
    | starts => simp [dispatched, Recording.start]
  | closes _ hcloses =>
    cases hcloses with
    | unmatched => simp [dispatched, Step.failed, hfetched]
    | again => simp [dispatched, Step.quiet, Recording.rewind, hfetched]
    | leavesInner => simp [dispatched, Step.quiet, hfetched]
    | leavesOutermost => simp [dispatched, Recording.empty]

/-- A step counts the operation that it executes. -/
theorem steps_step (m : Machine) :
    m.step.machine.steps = m.steps + m.executed?.toList.length := by
  have hreports := reports_step m
  generalize m.step = s at hreports
  cases hreports with
  | idles hexecuted hidles =>
    rw [hidles.same, hexecuted]
    rfl
  | plain hexecuted _ hkeeps => rw [hkeeps.steps, steps_counted, hexecuted]; rfl
  | opens hexecuted hopens =>
    rw [hexecuted]
    cases hopens <;> exact steps_counted m
  | closes hexecuted hcloses =>
    rw [hexecuted]
    cases hcloses <;> exact steps_counted m

/-- A going machine has one more loop for each that it enters, and one less for each closing bracket
that it executes. -/
theorem depth_step (h : m.step.machine.mode ≠ .halted) :
    m.loops.depth + m.step.events.countP Event.entersLoop
      = m.step.machine.loops.depth + m.executed?.toList.count .loopClose := by
  have hreports := reports_step m
  generalize m.step = s at h hreports
  cases hreports with
  | idles hexecuted hidles =>
    have hnone : s.events.countP Event.entersLoop = 0 := by
      rw [List.countP_eq_zero]
      intro e he
      obtain ⟨unclosed, rfl⟩ := hidles.events e he
      simp [Event.entersLoop]
    rw [hidles.same, hexecuted, hnone]
    rfl
  | plain hexecuted hp hkeeps hevents =>
    rw [hkeeps.loops, loops_counted, hexecuted, hevents]
    simp [dispatched, Event.entersLoop, hp.2]
  | opens hexecuted hopens =>
    rw [hexecuted]
    cases hopens with
    | passesOver => simp [dispatched, Event.entersLoop, Step.quiet]
    | enters | starts => simp [dispatched, Event.entersLoop]
  | closes hexecuted hcloses =>
    rw [hexecuted]
    have hdepth : ∀ {below : List Nat} {position : Nat},
        m.counted.loops.positions.toList = below ++ [position] →
        m.loops.positions.size = below.length + 1 := by
      intro below position hloops
      rw [loops_counted] at hloops
      rw [← Array.length_toList, hloops]
      simp
    cases hcloses with
    | unmatched => simp [Step.failed] at h
    | again hloops | leavesInner hloops =>
      simp [dispatched, Event.entersLoop, Step.quiet, hdepth hloops, LoopStack.depth]
    | leavesOutermost hloops =>
      simp [dispatched, Event.entersLoop, @hdepth [] _ hloops, LoopStack.depth]

section Run

variable {count : Nat}

theorem dispatchedOps_succ (count : Nat) (m : Machine) : m.dispatchedOps (count + 1)
    = m.dispatchedOps count ++ (m.after count).executed?.toList := by
  rw [dispatchedOps, eventsOf_succ_eq_append, List.filterMap_append, ops_step, ← dispatchedOps]

/-- Every operation that is executed is reported, once. -/
theorem length_dispatchedOps (count : Nat) (m : Machine) :
    m.steps + (m.dispatchedOps count).length = (m.after count).steps := by
  induction count with
  | zero => rfl
  | succ count ih =>
    rw [dispatchedOps_succ, after_succ_eq_step, steps_step, ← ih, List.length_append]
    omega

theorem depth_after (h : (m.after count).mode ≠ .halted) :
    m.loops.depth + (m.eventsOf count).countP Event.entersLoop
      = (m.after count).loops.depth + (m.dispatchedOps count).count .loopClose := by
  induction count with
  | zero => rfl
  | succ count ih =>
    rw [after_succ_eq_step] at h
    have hstep := depth_step h
    have hearlier := ih (mode_ne_halted_of_step h)
    rw [eventsOf_succ_eq_append, dispatchedOps_succ, after_succ_eq_step, List.countP_append,
      List.count_append]
    omega

end Run

end Machine

end TapeMachine
