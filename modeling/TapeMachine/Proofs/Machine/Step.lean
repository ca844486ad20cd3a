import TapeMachine.Proofs.Machine.Execute

/-!
# One step of a machine that follows its program

A step of a machine that goes on either keeps it following its program, or meets the end with every
operation passed, or fails. The fault of an unmatched bracket arises only outside every loop, behind
operations that leave nothing open.
-/

namespace TapeMachine.Machine

open Brackets Listing

variable {program read : List ReadEvent} {before front : List Op} {op : Op} {depth : Nat}
  {m : Machine}

/-- What the execution of an operation that is no bracket does not touch. -/
structure Keeps (m : Machine) (s : Step) : Prop where
  recording : s.machine.recording = m.recording
  loops : s.machine.loops = m.loops
  source : s.machine.source = m.source
  steps : s.machine.steps = m.steps
  mode : s.fault = none → s.machine.mode = m.mode
  fault : ∀ offset, s.fault ≠ some (.unmatchedClose offset)

theorem keeps_moveCursor (direction : Direction) (m : Machine) :
    Keeps m (m.moveCursor direction) := by
  rcases hmove : m.tape.move direction with ⟨result, tape⟩
  rw [moveCursor, hmove]
  cases result with
  | ok => exact ⟨rfl, rfl, rfl, rfl, fun _ => rfl, fun _ h => by simp [Step.quiet] at h⟩
  | error fault =>
    have hrefusal := Tape.move_error (congrArg Prod.fst hmove)
    rw [hmove, Prod.mk.injEq, Except.error.injEq] at hrefusal
    refine ⟨rfl, rfl, rfl, rfl, fun h => by simp [Step.failed] at h, fun _ h => ?_⟩
    simp [Step.failed, hrefusal.1, Tape.refusal] at h

theorem keeps_readInput (m : Machine) : Keeps m m.readInput := by
  rcases hread : readByte m.input with ⟨result, input⟩
  rw [readInput, hread]
  cases result with
  | ok value => exact ⟨rfl, rfl, rfl, rfl, fun _ => rfl, fun _ h => by simp [Step.quiet] at h⟩
  | error error =>
    exact ⟨rfl, rfl, rfl, rfl, fun h => by simp [Step.failed] at h,
      fun _ h => by simp [Step.failed] at h⟩

theorem put_error {sink : Sink} {value : UInt8} {fault : Fault}
    (h : (sink.put value).1 = .error fault) : ∃ error, fault = .sinkUnavailable error := by
  unfold Sink.put at h
  split at h
  · exact ⟨_, (Except.error.inj h).symm⟩
  · split at h
    · exact ⟨_, (Except.error.inj h).symm⟩
    · simp at h

theorem keeps_writeOutput (m : Machine) : Keeps m m.writeOutput := by
  rcases hput : m.sink.put m.tape.current with ⟨result, sink⟩
  rw [writeOutput, hput]
  cases result with
  | ok => exact ⟨rfl, rfl, rfl, rfl, fun _ => rfl, fun _ h => by simp [Step.quiet] at h⟩
  | error fault =>
    obtain ⟨error, rfl⟩ := put_error (congrArg Prod.fst hput)
    exact ⟨rfl, rfl, rfl, rfl, fun h => by simp [Step.failed] at h,
      fun _ h => by simp [Step.failed] at h⟩

theorem keeps_execute (hp : Plain op) (m : Machine) : Keeps m (m.execute op) := by
  cases op with
  | increment | decrement =>
    exact ⟨rfl, rfl, rfl, rfl, fun _ => rfl, fun _ h => by simp [execute, Step.quiet] at h⟩
  | right => exact keeps_moveCursor .right m
  | left => exact keeps_moveCursor .left m
  | input => exact keeps_readInput m
  | output => exact keeps_writeOutput m
  | loopOpen => exact absurd rfl hp.1
  | loopClose => exact absurd rfl hp.2

theorem enterLoop_of_zero (h : m.tape.current = 0) :
    m.enterLoop = .quiet { m with mode := .skipping 1 } := by
  rw [enterLoop, if_pos h]

theorem enterLoop_of_active (h : m.tape.current ≠ 0) (hactive : m.recording.ops ≠ #[]) :
    m.enterLoop = ⟨{ m with loops := m.loops.push m.recording.lastPosition }, none,
      [.enterLoop m.recording.lastPosition (m.loops.push m.recording.lastPosition).depth]⟩ := by
  have hrecording : m.recording.isActive = true := by simpa [Recording.isActive] using hactive
  simp only [enterLoop, if_neg h, hrecording, if_true]

theorem enterLoop_of_inactive (h : m.tape.current ≠ 0) (hinactive : m.recording.ops = #[]) :
    m.enterLoop = ⟨{ m with recording := .start .loopOpen, loops := m.loops.push 0 }, none,
      [.enterLoop 0 (m.loops.push 0).depth]⟩ := by
  have hrecording : m.recording.isActive = false := by simp [Recording.isActive, hinactive]
  simp only [enterLoop, if_neg h, hrecording, Bool.false_eq_true, if_false]
  rfl

/-- A bracket touches nothing but the recording, the loops and the mode. -/
theorem enterLoop_same (m : Machine) :
    m.enterLoop.machine = { m with
      recording := m.enterLoop.machine.recording
      loops := m.enterLoop.machine.loops
      mode := m.enterLoop.machine.mode } := by
  unfold enterLoop
  split <;> rfl

theorem closeLoop_same (m : Machine) :
    m.closeLoop.machine = { m with
      recording := m.closeLoop.machine.recording
      loops := m.closeLoop.machine.loops
      mode := m.closeLoop.machine.mode } := by
  unfold closeLoop
  dsimp only
  split
  · rfl
  · split
    · rfl
    · split <;> rfl

theorem mode_enterLoop (h : m.tape.current ≠ 0) : m.enterLoop.machine.mode = m.mode := by
  rw [enterLoop, if_neg h]

theorem mode_closeLoop (h : m.closeLoop.fault = none) : m.closeLoop.machine.mode = m.mode := by
  unfold closeLoop at h ⊢
  dsimp only at h ⊢
  split at h
  · simp [Step.failed] at h
  · split
    · rfl
    · split <;> rfl

theorem closeLoop_of_empty (h : m.loops.positions = #[]) :
    m.closeLoop = .failed (.unmatchedClose (m.source.offset - 1)) m := by
  rw [closeLoop, LoopStack.pop_eq_error h]

section Closing

variable {below : List Nat} {position : Nat}

theorem closeLoop_of_ne (hloops : m.loops.positions.toList = below ++ [position])
    (h : m.tape.current ≠ 0) :
    m.closeLoop = .quiet
      { m with loops := ⟨below.toArray⟩, recording := m.recording.rewind position } := by
  rw [closeLoop, LoopStack.pop_eq_ok hloops]
  exact if_pos h

theorem closeLoop_of_inner (hloops : m.loops.positions.toList = below ++ [position])
    (h : m.tape.current = 0) (hbelow : below ≠ []) :
    m.closeLoop = .quiet { m with loops := ⟨below.toArray⟩ } := by
  rw [closeLoop, LoopStack.pop_eq_ok hloops]
  simp [h, LoopStack.isEmpty, hbelow]

theorem closeLoop_of_outermost (hloops : m.loops.positions.toList = [position])
    (h : m.tape.current = 0) :
    m.closeLoop = ⟨{ m with loops := ⟨#[]⟩, recording := .empty }, none,
      [.leaveLoop m.recording.size]⟩ := by
  replace hloops : m.loops.positions.toList = [] ++ [position] := hloops
  rw [closeLoop, LoopStack.pop_eq_ok hloops]
  simp [h, LoopStack.isEmpty]

end Closing

/-- What the execution of an operation leads to, seen from the program it has delivered. -/
structure Executes (before front : List Op) (op : Op) (m m' : Machine) (before' : List Op)
    (depth' : Nat) : Prop where
  represents : Represents before' depth' m'
  source : m'.source = m.source
  delivered : before' ++ m'.recording.ops.toList = before ++ m.recording.ops.toList
  on : ¬(op = .loopClose ∧ m.tape.current ≠ 0) → m'.passed before' = front ++ [op]
  jump : op = .loopClose → m.tape.current ≠ 0 → ∃ below opening,
    openPositions front = below ++ [opening] ∧ m'.passed before' = front.take opening
  kept : m'.recording.ops ≠ #[] → m.recording.ops ≠ #[] ∧ before' = before ∨
    m.recording.ops = #[] ∧ before' = front ∧ op = .loopOpen ∧ m.tape.current ≠ 0
  back : m'.recording.ops ≠ #[] → m'.loops.positions = #[] →
    op = .loopClose ∧ m.loops.positions = #[0]

theorem Fetched.execute_plain (h : Fetched before front op 0 m) (hp : Plain op)
    (hfault : (m.execute op).fault = none) :
    Executes before front op m (m.execute op).machine before 0 := by
  obtain ⟨hrecording, hloops, hsource, -, hmode, -⟩ := keeps_execute hp m
  have hrep := h.represents_plain hp (hmode hfault) hrecording hloops
  refine ⟨hrep, hsource, by rw [hrecording], fun _ => ?_, fun heq => absurd heq hp.2, ?_, ?_⟩
  · rw [passed, hrecording]
    exact h.passed_eq
  · rw [hrecording]
    exact fun hactive => Or.inl ⟨hactive, rfl⟩
  · rw [hrecording, hloops]
    intro hactive hnil
    exact absurd ((h.inside hactive).2.2.2 hnil).2.2.1 hp.1

theorem Fetched.execute_open (h : Fetched before front .loopOpen 0 m) :
    (m.execute .loopOpen).fault = none ∧ ∃ before' depth',
      Executes before front .loopOpen m (m.execute .loopOpen).machine before' depth' := by
  change m.enterLoop.fault = none ∧ ∃ before' depth',
    Executes before front .loopOpen m m.enterLoop.machine before' depth'
  refine ⟨enterLoop_fault m, ?_⟩
  by_cases hcell : m.tape.current = 0
  · have hentered : m.recording.ops ≠ #[] → m.loops.positions ≠ #[] :=
      fun hactive hnil => ((h.inside hactive).2.2.2 hnil).2.2.2 hcell
    rw [enterLoop_of_zero hcell]
    refine ⟨before, 1, h.represents_skip_open hentered, rfl, rfl, fun _ => h.passed_eq,
      fun heq => absurd heq (by decide), fun hactive => Or.inl ⟨hactive, rfl⟩,
      fun hactive hnil => absurd hnil (hentered hactive)⟩
  by_cases hinactive : m.recording.ops = #[]
  · have hbefore : before = front ++ [.loopOpen] := by
      rw [← h.passed_eq, passed_of_empty before hinactive]
    rw [enterLoop_of_inactive hcell hinactive]
    refine ⟨front, 0, h.represents_start hinactive, rfl, ?_, fun _ => rfl,
      fun heq => absurd heq (by decide), fun _ => Or.inr ⟨hinactive, rfl, rfl, hcell⟩,
      fun _ hnil => ?_⟩
    · rw [hbefore, hinactive]
      exact (List.append_nil _).symm
    · simp [LoopStack.push] at hnil
  · rw [enterLoop_of_active hcell hinactive]
    refine ⟨before, 0, h.represents_enter hinactive, rfl, rfl, fun _ => h.passed_eq,
      fun heq => absurd heq (by decide), fun hactive => Or.inl ⟨hactive, rfl⟩, fun _ hnil => ?_⟩
    simp [LoopStack.push] at hnil

theorem Fetched.execute_close (h : Fetched before front .loopClose 0 m)
    (hloops : m.loops.positions ≠ #[]) :
    (m.execute .loopClose).fault = none ∧ ∃ before' depth',
      Executes before front .loopClose m (m.execute .loopClose).machine before' depth' := by
  change m.closeLoop.fault = none ∧ ∃ before' depth',
    Executes before front .loopClose m m.closeLoop.machine before' depth'
  rcases List.eq_nil_or_concat m.loops.positions.toList with hnil | ⟨below, position, hsplit⟩
  · exact absurd (by simpa using hnil) hloops
  rw [List.concat_eq_append] at hsplit
  have hactive := h.recording_active hsplit
  by_cases hcell : m.tape.current = 0
  · by_cases hbelow : below = []
    · subst hbelow
      rw [closeLoop_of_outermost hsplit hcell]
      obtain ⟨hrep, hend⟩ := h.represents_finish hsplit
      refine ⟨rfl, _, 0, hrep, rfl, List.append_nil _, fun _ => ?_,
        fun _ hne => absurd hcell hne, fun hne => absurd rfl hne, fun hne => absurd rfl hne⟩
      rw [passed_of_empty _ rfl, ← passed_of_size_le before (Nat.le_of_eq hend.symm)]
      exact h.passed_eq
    · rw [closeLoop_of_inner hsplit hcell hbelow]
      refine ⟨rfl, before, 0, h.represents_leave hsplit hbelow, rfl, rfl, fun _ => h.passed_eq,
        fun _ hne => absurd hcell hne, fun _ => Or.inl ⟨hactive, rfl⟩, fun _ hnil =>
          absurd (by simpa [Step.quiet] using hnil) hbelow⟩
  · have hrep := h.represents_rewind hsplit hcell
    rw [closeLoop_of_ne hsplit hcell]
    refine ⟨rfl, before, 0, hrep, rfl, rfl, fun hon => absurd ⟨rfl, hcell⟩ hon,
      fun _ _ => ⟨_, _, h.opened_split hsplit, (h.opening hsplit).2.2.1.symm⟩,
      fun _ => Or.inl ⟨hactive, rfl⟩, fun _ hnil => ⟨rfl, ?_⟩⟩
    have hposition : position = 0 := ((hrep.inside hactive).2.2 hnil).2.1
    have hbelow : below = [] := by simpa [Step.quiet] using hnil
    apply Array.ext'
    rw [hsplit, hposition, hbelow]
    rfl

/-- An operation is executed, or its fault is that of an unmatched bracket outside every loop, or
another one. -/
theorem Fetched.execute_cases (h : Fetched before front op 0 m) :
    ((m.execute op).fault = none ∧ ∃ before' depth',
        Executes before front op m (m.execute op).machine before' depth') ∨
      (op = .loopClose ∧ m.loops.positions = #[] ∧ m.recording.ops = #[] ∧
        m.execute op = .failed (.unmatchedClose (m.source.offset - 1)) m) ∨
      ∃ fault, (m.execute op).fault = some fault ∧ ∀ offset, fault ≠ .unmatchedClose offset := by
  cases op using bracketCases with
  | opening => exact Or.inl h.execute_open
  | closing =>
    by_cases hloops : m.loops.positions = #[]
    · have hinactive : m.recording.ops = #[] := by
        by_contra hactive
        exact absurd ((h.inside hactive).2.2.2 hloops).2.2.1 (by decide)
      exact Or.inr (Or.inl ⟨rfl, hloops, hinactive, closeLoop_of_empty hloops⟩)
    · exact Or.inl (h.execute_close hloops)
  | plain op hp =>
    cases hfault : (m.execute op).fault with
    | none => exact Or.inl ⟨rfl, before, 0, h.execute_plain hp hfault⟩
    | some fault =>
      refine Or.inr (Or.inr ⟨fault, rfl, fun offset heq => ?_⟩)
      exact (keeps_execute hp m).fault offset (heq ▸ hfault)

/-- The step starts a recording: it enters a loop outside every other. -/
structure StartsRecording (m : Machine) : Prop where
  mode : m.mode = .running
  inactive : m.recording.ops = #[]
  opens : m.fetch.1 = .ok (some .loopOpen)
  cell : m.tape.current ≠ 0

/-- The step ends a pass through the outermost loop entered. -/
structure ClosesOutermost (m : Machine) : Prop where
  mode : m.mode = .running
  closes : m.fetch.1 = .ok (some .loopClose)
  loops : m.loops.positions = #[0]

/-- The step goes back to the start of the innermost loop entered. -/
structure JumpsBack (m : Machine) : Prop where
  mode : m.mode = .running
  closes : m.fetch.1 = .ok (some .loopClose)
  cell : m.tape.current ≠ 0

/-- A step after which the machine still follows its program. As long as something is recorded, the
program before the recording stays the same. -/
structure Advances (program : List ReadEvent) (before : List Op) (m : Machine)
    (read' : List ReadEvent) (before' : List Op) (depth' : Nat) (m' : Machine) : Prop where
  follows : Follows program read' before' depth' m'
  on : ∀ op, m.fetch.1 = .ok (some op) → ¬m.JumpsBack →
    m'.passed before' = m.passed before ++ [op]
  jump : m.JumpsBack → ∃ below opening, openPositions (m.passed before) = below ++ [opening] ∧
    m'.passed before' = (m.passed before).take opening
  kept : m'.recording.ops ≠ #[] →
    before' = before ∧ (m.recording.ops ≠ #[] ∨ m.StartsRecording)
  back : m'.recording.ops ≠ #[] → m'.loops.positions = #[] → m.ClosesOutermost

/-- A step that meets the end of the program, all of which has been passed. -/
structure Ends (program : List ReadEvent) (before : List Op) (depth : Nat) (m : Machine) :
    Prop where
  eq_ended : ∃ source, m.step = .ended (m.loops.depth + depth) { m with source := source }
  exhausted : m.step.machine.source.exhausted = true
  offset : m.step.machine.source.offset = (delivered program).length
  passed_all : operations (delivered program) = m.passed before

/-- A closing bracket is met, at an offset, behind a text that leaves nothing open. -/
structure Overcloses (program : List ReadEvent) (offset : Nat) (m' : Machine) : Prop where
  consumed : ∃ front, Flowing front ∧ Balanced (operations (delivered front)) ∧
    program = front ++ .byte Op.loopClose.byte :: m'.source.events ∧
    offset = (delivered front).length
  offset : m'.source.offset = offset + 1

theorem step_of_running (h : m.mode = .within 0) : m.step = m.executeNext := by
  simp only [step, h, Mode.within]

theorem step_of_skipping {depth : Nat} (h : m.mode = .within (depth + 1)) :
    m.step = m.skipNext (depth + 1) := by
  simp only [step, h, Mode.within]

section Fetching

variable {m' : Machine}

theorem executeNext_of_op (h : m.fetch = (.ok (some op), m')) :
    m.executeNext = { { m' with steps := m'.steps + 1 }.execute op with
      events := m'.dispatched op :: ({ m' with steps := m'.steps + 1 }.execute op).events } := by
  rw [executeNext, h]

theorem skipNext_of_op (h : m.fetch = (.ok (some op), m')) (depth : Nat) :
    m.skipNext depth = .quiet { m' with mode := .within (depthAfter depth op) } := by
  rw [skipNext, h]

theorem Fetched.counted (h : Fetched before front op depth m) (steps : Nat) :
    Fetched before front op depth { m with steps := steps } :=
  ⟨h.mode, h.cursor_le, h.passed_eq, h.depth_eq, h.opened, h.outside, h.inside⟩

variable {read' : List ReadEvent} {before' : List Op}

/-- A fetch records its operation exactly inside a recording. -/
theorem Fetches.recording_iff (h : Fetches program read before op depth m m' read' before') :
    m'.recording.ops = #[] ↔ m.recording.ops = #[] := by
  constructor
  · intro hafter
    by_contra hactive
    exact (h.recorded hactive).2 hafter
  · exact fun hinactive => (h.unrecorded hinactive).2.1

theorem Fetches.tape (h : Fetches program read before op depth m m' read' before') :
    m'.tape = m.tape := by
  rw [h.same]

theorem Fetches.loops (h : Fetches program read before op depth m m' read' before') :
    m'.loops = m.loops := by
  rw [h.same]

/-- The execution of what was fetched completes a step. -/
theorem Fetches.advances_execute
    (hf : Fetches program read before op 0 m m' read' before') (hmode : m.mode = .running)
    (hfetch : m.fetch = (.ok (some op), m')) {final : Machine} {before'' : List Op}
    {depth'' : Nat} (he : Executes before' (m.passed before) op m' final before'' depth'') :
    Advances program before m read' before'' depth'' final := by
  refine ⟨⟨he.represents, ?_, ?_⟩, ?_, ?_, ?_, ?_⟩
  · rw [he.source]
    exact hf.reads
  · rw [hf.delivered_eq, he.delivered]
  · intro fetched hfetched hon
    rw [hfetch, Except.ok.injEq, Option.some.injEq] at hfetched
    subst hfetched
    refine he.on fun ⟨hop, hcell⟩ => hon ⟨hmode, by rw [hfetch, hop], ?_⟩
    rwa [hf.tape] at hcell
  · intro hjump
    have hcloses := hjump.closes
    rw [hfetch, Except.ok.injEq, Option.some.injEq] at hcloses
    refine he.jump hcloses ?_
    rw [hf.tape]
    exact hjump.cell
  · intro hactive
    rcases he.kept hactive with ⟨hrecorded, heq⟩ | ⟨hunrecorded, heq, hop, hcell⟩
    · have hbefore : m.recording.ops ≠ #[] := fun hnil => hrecorded (hf.recording_iff.mpr hnil)
      exact ⟨heq.trans (hf.recorded hbefore).1, Or.inl hbefore⟩
    · have hinactive := hf.recording_iff.mp hunrecorded
      refine ⟨heq.trans (passed_of_empty before hinactive), Or.inr ⟨hmode, hinactive, ?_, ?_⟩⟩
      · rw [hfetch, hop]
      · rwa [hf.tape] at hcell
  · intro hactive hnil
    obtain ⟨hop, hloops⟩ := he.back hactive hnil
    refine ⟨hmode, ?_, ?_⟩
    · rw [hfetch, hop]
    · rwa [hf.loops] at hloops

/-- An operation that is passed over completes a step. -/
theorem Fetches.advances_skip (hf : Fetches program read before op (depth + 1) m m' read' before')
    (hmode : m.mode = .skipping (depth + 1)) (hfetch : m.fetch = (.ok (some op), m')) :
    Advances program before m read' before' (depthAfter (depth + 1) op)
      { m' with mode := .within (depthAfter (depth + 1) op) } := by
  have hrep := hf.fetched.represents_skip
  refine ⟨⟨hrep, hf.reads, hf.delivered_eq⟩, ?_, ?_, ?_, ?_⟩
  · intro fetched hfetched _
    rw [hfetch, Except.ok.injEq, Option.some.injEq] at hfetched
    subst hfetched
    exact hf.fetched.passed_eq
  · intro hjump
    have hrunning := hjump.mode
    simp [hmode] at hrunning
  · intro hactive
    have hbefore : m.recording.ops ≠ #[] := fun hnil => hactive (hf.recording_iff.mpr hnil)
    exact ⟨(hf.recorded hbefore).1, Or.inl hbefore⟩
  · intro hactive hnil
    exact absurd hnil (hf.fetched.entered_of_skipping hactive)

/-- A closing bracket fetched outside every loop is unmatched in the text. -/
theorem Fetches.overcloses (hf : Fetches program read before .loopClose 0 m m' read' before')
    (h : Represents before 0 m) (hinactive : m'.recording.ops = #[])
    (hloops : m'.loops.positions = #[]) :
    Overcloses program (m'.source.offset - 1) m' := by
  have hbefore := hf.recording_iff.mp hinactive
  obtain ⟨-, -, front, hflow, hfront, hread⟩ := hf.unrecorded hbefore
  have hbalanced : Balanced before := by
    have hdepth := h.depth_eq
    rw [hf.loops] at hloops
    rwa [passed_of_empty before hbefore, LoopStack.depth, hloops] at hdepth
  have hlength : (delivered read').length = (delivered front).length + 1 := by
    rw [hread, delivered_append hflow, List.length_append]
    rfl
  have hoffset : m'.source.offset = (delivered front).length + 1 := by
    rw [hf.reads.offset, hlength]
  refine ⟨⟨front, hflow, by rw [hfront]; exact hbalanced, ?_, ?_⟩, ?_⟩
  · have hsplit := hf.reads.split
    rwa [hread, List.append_assoc] at hsplit
  · rw [hoffset, Nat.add_sub_cancel]
  · rw [hoffset, Nat.add_sub_cancel]

end Fetching

/-- What a step does to a machine that goes on. -/
theorem Follows.step_cases (h : Follows program read before depth m) :
    (m.step.fault = none ∧ ∃ read' before' depth',
        Advances program before m read' before' depth' m.step.machine) ∨
      (m.step.fault = none ∧ Ends program before depth m) ∨
      ∃ fault, m.step.fault = some fault ∧
        ∀ offset, fault = .unmatchedClose offset → Overcloses program offset m.step.machine := by
  cases depth with
  | zero =>
    have hstep := step_of_running h.mode
    rcases h.fetch_cases with ⟨op, m', read', before', hfetch, hf⟩ |
      ⟨source, hfetch, hexhausted, hoffset, hall⟩ | ⟨error, m', hfetch, -⟩
    · rw [hstep, executeNext_of_op hfetch]
      -- The counter is raised between the fetch and the execution, and nothing depends on it.
      have hcounted := hf.fetched.counted (m'.steps + 1)
      rcases hcounted.execute_cases with ⟨hfault, before'', depth'', he⟩ |
        ⟨hop, hloops, hinactive, heq⟩ | ⟨fault, hfault, hother⟩
      · have he' : Executes before' (m.passed before) op m' _ before'' depth'' :=
          ⟨he.represents, he.source, he.delivered, he.on, he.jump, he.kept, he.back⟩
        exact Or.inl ⟨hfault, read', before'', depth'', hf.advances_execute h.mode hfetch he'⟩
      · subst hop
        rw [heq]
        have hover := hf.overcloses h.toRepresents hinactive hloops
        refine Or.inr (Or.inr ⟨_, rfl, fun offset hoffset => ?_⟩)
        obtain rfl := Fault.unmatchedClose.inj hoffset
        exact ⟨hover.consumed, hover.offset⟩
      · exact Or.inr (Or.inr ⟨fault, hfault, fun offset heq => absurd heq (hother offset)⟩)
    · have hended : m.step = .ended (m.loops.depth + 0) { m with source := source } := by
        rw [hstep, executeNext, hfetch]
        rfl
      refine Or.inr (Or.inl ⟨by rw [hended]; rfl, ⟨source, hended⟩, ?_, ?_, hall⟩)
      · rw [hended]
        exact hexhausted
      · rw [hended]
        exact hoffset
    · rw [hstep, executeNext, hfetch]
      exact Or.inr (Or.inr ⟨_, rfl, fun offset heq => by simp at heq⟩)
  | succ depth =>
    have hstep := step_of_skipping h.mode
    rcases h.fetch_cases with ⟨op, m', read', before', hfetch, hf⟩ |
      ⟨source, hfetch, hexhausted, hoffset, hall⟩ | ⟨error, m', hfetch, -⟩
    · rw [hstep, skipNext_of_op hfetch]
      exact Or.inl ⟨rfl, read', before', _, hf.advances_skip h.mode hfetch⟩
    · have hended : m.step = .ended (m.loops.depth + (depth + 1)) { m with source := source } := by
        rw [hstep, skipNext, hfetch]
      refine Or.inr (Or.inl ⟨by rw [hended]; rfl, ⟨source, hended⟩, ?_, ?_, hall⟩)
      · rw [hended]
        exact hexhausted
      · rw [hended]
        exact hoffset
    · rw [hstep, skipNext, hfetch]
      exact Or.inr (Or.inr ⟨_, rfl, fun offset heq => by simp at heq⟩)

/-- A machine that goes on after a step still follows its program. -/
theorem Follows.advances (h : Follows program read before depth m)
    (hgoes : m.step.machine.mode ≠ .halted) :
    ∃ read' before' depth', Advances program before m read' before' depth' m.step.machine := by
  rcases h.step_cases with ⟨-, hadvances⟩ | ⟨-, hends⟩ | ⟨fault, hfault, -⟩
  · exact hadvances
  · obtain ⟨source, hended⟩ := hends.eq_ended
    rw [hended] at hgoes
    exact absurd rfl hgoes
  · exact absurd (mode_of_fault hfault) hgoes

end TapeMachine.Machine
