import TapeMachine.Proofs.Brackets.Insertion
import TapeMachine.Proofs.Loops.Counting
import TapeMachine.Proofs.Machine.Representation
import TapeMachine.Proofs.Machine.StepReports
import TapeMachine.Proofs.Machine.Supply

/-!
# Loops that only count

The body of such a loop changes the current cell by the same amount in every pass, modulo 256. The
first pass may be recorded while it is read, and every later one is replayed. The machine leaves the
loop after the pass in which the cell first comes to zero, and never if there is none.
-/

namespace TapeMachine.Machine

open Brackets

variable {m m' m'' : Machine} {op : Op} {body front rest : List Op} {position : Nat}

/-- What is recorded for a delivery stands between the operations that were there to be replayed and
those that still are. -/
theorem Delivers.unread_append {ops : List Op} (h : Delivers ops m m')
    (hactive : m.recording.ops ≠ #[]) :
    m.unread ++ ops.drop m.unread.length = ops ++ m'.unread := by
  obtain ⟨hcursor, hops⟩ := h.recorded hactive
  have hunread : m.unread <+: m.ready := List.prefix_append _ _
  have hdelivered : ops <+: m.ready := ⟨_, h.ready.symm⟩
  rcases Nat.le_total ops.length m.unread.length with hle | hle
  · obtain ⟨left, hleft⟩ := List.prefix_of_prefix_length_le hdelivered hunread hle
    have hunread' : m'.unread = m.unread.drop ops.length := by
      rw [unread, hops, hcursor, List.drop_of_length_le hle, List.append_nil, ← List.drop_drop]
      rfl
    rw [hunread', List.drop_of_length_le hle, List.append_nil, ← hleft, List.drop_left]
  · obtain ⟨left, hleft⟩ := List.prefix_of_prefix_length_le hunread hdelivered hle
    have hunread' : m'.unread = [] := by
      refine List.eq_nil_of_length_eq_zero ?_
      rw [h.length_unread]
      omega
    rw [hunread', List.append_nil, ← hleft, List.drop_left]

/-- Between the two machines so many operations were executed, and no cell but the current one was
changed. -/
structure Counts (steps : Nat) (m m' : Machine) : Prop where
  config : m'.config = m.config
  input : m'.input = m.input
  sink : m'.sink = m.sink
  mode : m'.mode = m.mode
  outputBytes : m'.outputBytes = m.outputBytes
  unclosedLoops : m'.unclosedLoops = m.unclosedLoops
  steps : m'.steps = m.steps + steps
  tape : m'.tape = m.tape.set m'.tape.current

theorem counts_zero (m : Machine) : Counts 0 m m :=
  ⟨rfl, rfl, rfl, rfl, rfl, rfl, rfl, m.tape.set_current.symm⟩

theorem Counts.trans {first second : Nat} (h : Counts first m m') (h' : Counts second m' m'') :
    Counts (first + second) m m'' where
  config := h'.config.trans h.config
  input := h'.input.trans h.input
  sink := h'.sink.trans h.sink
  mode := h'.mode.trans h.mode
  outputBytes := h'.outputBytes.trans h.outputBytes
  unclosedLoops := h'.unclosedLoops.trans h.unclosedLoops
  steps := by rw [h'.steps, h.steps, Nat.add_assoc]
  tape := by
    have htape := h'.tape
    rwa [h.tape, Tape.set_set] at htape

/-- Neither the loops nor what is recorded of them matters. -/
theorem Counts.withLoops {steps : Nat} (h : Counts steps m m') (loops : LoopStack)
    (recording : Recording) :
    Counts steps m { m' with loops := loops, recording := recording } where
  config := h.config
  input := h.input
  sink := h.sink
  mode := h.mode
  outputBytes := h.outputBytes
  unclosedLoops := h.unclosedLoops
  steps := h.steps
  tape := h.tape

theorem Counts.inBounds {steps : Nat} (h : Counts steps m m') (hbounds : m.tape.InBounds) :
    m'.tape.InBounds := by
  rw [h.tape]
  exact Tape.inBounds_set.mpr hbounds

/-- A machine that is to execute an operation has fetched and counted it. -/
theorem counts_counted (m : Machine) : Counts 1 m m.counted where
  config := config_counted m
  input := input_counted m
  sink := sink_counted m
  mode := mode_counted m
  outputBytes := outputBytes_counted m
  unclosedLoops := by rw [counted, fetch_same]
  steps := steps_counted m
  tape := by rw [tape_counted, Tape.set_current]

theorem counts_step (hmode : m.mode = .running) (hbounds : m.tape.InBounds)
    (hcursor : m.recording.cursor ≤ m.recording.ops.size) (hop : op.Counts)
    (hready : m.ready = op :: rest) :
    Delivers [op] m m.step.machine ∧ Counts 1 m m.step.machine ∧
      m.step.machine.loops = m.loops ∧
      m.step.machine.tape.current = countedFrom m.tape.current [op] := by
  obtain ⟨hfetched, hdelivers⟩ := fetch_ready hcursor hready
  have hstep : m.step.machine
      = { m.counted with tape := m.tape.set (countedFrom m.tape.current [op]) } := by
    rw [step_of_executed (executed?_eq_some_iff.mpr ⟨hmode, hfetched⟩)]
    rcases hop with rfl | rfl
    · rw [← tape_counted]
      rfl
    · rw [← tape_counted]
      rfl
  have hcell := Tape.current_set (countedFrom m.tape.current [op]) hbounds
  rw [hstep]
  refine ⟨hdelivers.of_same rfl rfl, ?_, loops_counted m, hcell⟩
  obtain ⟨hconfig, hinput, hsink, hmode, houtput, hunclosed, hsteps, -⟩ := counts_counted m
  exact ⟨hconfig, hinput, hsink, hmode, houtput, hunclosed, hsteps,
    congrArg m.tape.set hcell.symm⟩

theorem countedFrom_cons (value : UInt8) (op : Op) (rest : List Op) :
    countedFrom value (op :: rest) = countedFrom (countedFrom value [op]) rest := by
  cases op <;> rfl

/-- Operations that only count are executed one after another. -/
theorem counts_run (hmode : m.mode = .running) (hbounds : m.tape.InBounds)
    (hcursor : m.recording.cursor ≤ m.recording.ops.size) (hfront : ∀ op ∈ front, op.Counts)
    (hready : front <+: m.ready) :
    Delivers front m (m.after front.length) ∧ Counts front.length m (m.after front.length) ∧
      (m.after front.length).loops = m.loops ∧
      (m.after front.length).tape.current = countedFrom m.tape.current front := by
  induction front generalizing m with
  | nil => exact ⟨delivers_nil hcursor, counts_zero m, rfl, rfl⟩
  | cons op front ih =>
    obtain ⟨rest, hrest⟩ := hready
    obtain ⟨hdelivers, hcounts, hloops, hcell⟩ :=
      counts_step hmode hbounds hcursor (hfront op List.mem_cons_self) hrest.symm
    obtain ⟨hdelivers', hcounts', hloops', hcell'⟩ := ih (hcounts.mode.trans hmode)
      (hcounts.inBounds hbounds) hdelivers.cursor_le
      (fun op hop => hfront op (List.mem_cons_of_mem _ hop))
      (hdelivers.isPrefix_ready ⟨rest, hrest⟩)
    rw [List.length_cons, after_succ, countedFrom_cons, ← hcell]
    refine ⟨hdelivers.trans hdelivers', ?_, hloops'.trans hloops, hcell'⟩
    rw [Nat.add_comm]
    exact hcounts.trans hcounts'

/-- A loop that the machine has entered, with the position of its bracket in the recording. -/
structure Enters (position : Nat) (m m' : Machine) : Prop where
  counts : Counts 1 m m'
  cell : m'.tape.current = m.tape.current
  loops : m'.loops = m.loops.push position
  cursor_le : m'.recording.cursor ≤ m'.recording.ops.size
  active : m'.recording.ops ≠ #[]
  ready : m.ready = .loopOpen :: m'.ready
  upcoming : m.upcoming = .loopOpen :: m'.upcoming
  recorded : m'.recording.ops.toList.drop position = .loopOpen :: m'.unread
  replayed : m.unread ≠ [] → m.unread = .loopOpen :: m'.unread ∧ m'.source = m.source

theorem enters_step (hmode : m.mode = .running) (hcell : m.tape.current ≠ 0)
    (hcursor : m.recording.cursor ≤ m.recording.ops.size) (hready : m.ready = .loopOpen :: rest) :
    ∃ position, Enters position m m.step.machine := by
  obtain ⟨hfetched, hdelivers⟩ := fetch_ready hcursor hready
  replace hdelivers : Delivers [.loopOpen] m m.counted := hdelivers.of_same rfl rfl
  have hcounted := counts_counted m
  have hcell' : m.counted.tape.current = m.tape.current := by rw [tape_counted]
  have hloops := loops_counted m
  have hopens := opens_enterLoop m.counted
  have hstep : m.step.machine = (m.counted.enterLoop).machine := by
    rw [step_of_executed (executed?_eq_some_iff.mpr ⟨hmode, hfetched⟩)]
    rfl
  rw [hstep]
  generalize m.counted.enterLoop = entered at hopens
  cases hopens with
  | passesOver hzero => exact absurd ((tape_counted m) ▸ hzero) hcell
  | enters _ hactive =>
    have hrecorded : m.recording.ops ≠ #[] := mt recording_fetch_eq_empty_iff.mpr hactive
    obtain ⟨hnext, hops⟩ := hdelivers.recorded hrecorded
    have happend := hdelivers.unread_append hrecorded
    have hposition : m.counted.recording.lastPosition = m.recording.cursor := by
      rw [Recording.lastPosition, hnext]
      rfl
    refine ⟨m.counted.recording.lastPosition, hcounted.withLoops _ _, hcell',
      congrArg (LoopStack.push _) hloops, hdelivers.cursor_le, hactive, hdelivers.ready,
      hdelivers.upcoming, ?_, ?_⟩
    · rw [hposition]
      change m.counted.recording.ops.toList.drop m.recording.cursor = _
      rw [hops, List.drop_append_of_le_length (by simpa using hcursor)]
      exact happend
    · intro hunread
      have hlength : 1 ≤ m.unread.length := List.length_pos_iff.mpr hunread
      refine ⟨?_, hdelivers.replayed hlength⟩
      rwa [List.drop_of_length_le (by simpa using hlength), List.append_nil] at happend
  | starts _ hinactive =>
    have hunrecorded : m.recording.ops = #[] := recording_fetch_eq_empty_iff.mp hinactive
    have hnone := unread_of_empty hinactive
    refine ⟨0, hcounted.withLoops _ _, hcell', congrArg (LoopStack.push 0) hloops, Nat.le_refl 1,
      by simp [Recording.start], ?_, ?_, rfl,
      fun hunread => absurd (unread_of_empty hunrecorded) hunread⟩
    · rw [hdelivers.ready, Machine.ready, hnone]
      rfl
    · rw [hdelivers.upcoming, Machine.upcoming, hnone]
      rfl

theorem Enters.isPrefix_ready (h : Enters position m m') (hready : .loopOpen :: front <+: m.ready) :
    front <+: m'.ready := by
  rw [h.ready] at hready
  exact (List.cons_prefix_cons.mp hready).2

/-- Where the loop is recorded already the program is not read. -/
theorem Enters.replayed_of_isPrefix (h : Enters position m m')
    (hrecorded : .loopOpen :: front <+: m.unread) : front <+: m'.unread ∧ m'.source = m.source := by
  have hne : m.unread ≠ [] := by
    intro hnil
    rw [hnil] at hrecorded
    simp at hrecorded
  obtain ⟨hunread, hsource⟩ := h.replayed hne
  rw [hunread] at hrecorded
  exact ⟨(List.cons_prefix_cons.mp hrecorded).2, hsource⟩

/-- The machine so far in a pass through a loop that only counts. -/
structure Turns (position : Nat) (front : List Op) (m m' : Machine) : Prop where
  entered : Enters position m m.step.machine
  delivers : Delivers front m.step.machine m'
  counts : Counts (front.length + 1) m m'
  loops : m'.loops = m.loops.push position
  cell : m'.tape.current = countedFrom m.tape.current front

/-- The loop is entered and its first operations are executed. -/
theorem turns_after (hmode : m.mode = .running) (hcell : m.tape.current ≠ 0)
    (hcursor : m.recording.cursor ≤ m.recording.ops.size) (hfront : ∀ op ∈ front, op.Counts)
    (hready : .loopOpen :: front <+: m.ready) :
    ∃ position, Turns position front m (m.after (front.length + 1)) := by
  obtain ⟨rest, hrest⟩ := hready
  obtain ⟨position, hentered⟩ := enters_step hmode hcell hcursor hrest.symm
  obtain ⟨hdelivers, hcounts, hloops, hvalue⟩ :=
    counts_run (hentered.counts.mode.trans hmode)
      (hentered.counts.inBounds (Tape.inBounds_of_current_ne hcell)) hentered.cursor_le hfront
      (hentered.isPrefix_ready ⟨rest, hrest⟩)
  rw [hentered.cell] at hvalue
  have hboth := hentered.counts.trans hcounts
  rw [Nat.add_comm] at hboth
  exact ⟨position, hentered, hdelivers, hboth, hloops.trans hentered.loops, hvalue⟩

/-- A closing bracket takes the machine back, or out of the loop. -/
theorem step_of_close {outer : LoopStack} (hmode : m.mode = .running)
    (hcursor : m.recording.cursor ≤ m.recording.ops.size) (hready : m.ready = .loopClose :: rest)
    (hloops : m.loops = outer.push position) :
    m.fetch.1 = .ok (some .loopClose) ∧ Delivers [.loopClose] m m.counted ∧
      m.step.machine = { m.counted with
        loops := outer
        recording := if m.tape.current ≠ 0 then m.counted.recording.rewind position
          else if outer.isEmpty then .empty else m.counted.recording } := by
  obtain ⟨hfetched, hdelivers⟩ := fetch_ready hcursor hready
  refine ⟨hfetched, hdelivers.of_same rfl rfl, ?_⟩
  rw [← tape_counted, step_of_executed (executed?_eq_some_iff.mpr ⟨hmode, hfetched⟩), execute,
    closeLoop, loops_counted, hloops, LoopStack.pop_push]
  dsimp only
  split
  · rfl
  · split <;> rfl

/-- Behind the last bracket of an outermost loop nothing is recorded. -/
theorem Follows.unread_of_outermost {program read : List ReadEvent} {before : List Op}
    (h : Follows program read before 0 m) (hfetched : m.fetch.1 = .ok (some .loopClose))
    (hloops : m.loops.positions.toList = [position]) : m.counted.unread = [] := by
  rcases h.fetch_cases with ⟨op, m', read', before', hfetch, hf⟩ | ⟨source, hfetch, -⟩ |
    ⟨error, m', hfetch, -⟩
  all_goals rw [hfetch] at hfetched
  · obtain rfl : op = .loopClose := by simpa using hfetched
    have hend := (hf.fetched.represents_finish (by rw [hf.loops]; exact hloops)).2
    have hmachine : m.counted.unread = m'.unread := by
      rw [counted, hfetch]
      rfl
    rw [hmachine, unread_of_size_le (Nat.le_of_eq hend.symm)]
  · simp at hfetched
  · simp at hfetched

/-- The machine behind a pass after which the loop is entered again. -/
structure TurnsBack (body : List Op) (m m' : Machine) : Prop where
  counts : Counts (body.length + 2) m m'
  loops : m'.loops = m.loops
  cell : m'.tape.current = countedFrom m.tape.current body
  cursor_le : m'.recording.cursor ≤ m'.recording.ops.size
  ready : m'.ready = m.ready
  upcoming : m'.upcoming = m.upcoming
  unread : enclose body <+: m'.unread
  replayed : enclose body <+: m.unread → m'.source = m.source

/-- The machine behind the last pass. -/
structure TurnsOut (body : List Op) (m m' : Machine) : Prop where
  counts : Counts (body.length + 2) m m'
  loops : m'.loops = m.loops
  cell : m'.tape.current = countedFrom m.tape.current body
  upcoming : m.upcoming = enclose body ++ m'.upcoming
  outermost : m.loops.positions = #[] → m'.recording = .empty

section Pass

variable (hmode : m.mode = .running) (hcell : m.tape.current ≠ 0)
  (hcursor : m.recording.cursor ≤ m.recording.ops.size) (hbody : ∀ op ∈ body, op.Counts)
  (hready : enclose body <+: m.ready)

include hmode hcell hcursor hbody hready

/-- How the machine stands before the closing bracket, and what the bracket does. -/
theorem closes_after : ∃ position, Turns position body m (m.after (body.length + 1)) ∧
    (m.after (body.length + 1)).fetch.1 = .ok (some .loopClose) ∧
    Delivers (body ++ [.loopClose]) m.step.machine (m.after (body.length + 1)).counted ∧
    m.after (body.length + 2) = { (m.after (body.length + 1)).counted with
      loops := m.loops
      recording := if countedFrom m.tape.current body ≠ 0
        then (m.after (body.length + 1)).counted.recording.rewind position
        else if m.loops.isEmpty then .empty
        else (m.after (body.length + 1)).counted.recording } := by
  have hfront : Op.loopOpen :: body <+: m.ready :=
    (List.prefix_append (Op.loopOpen :: body) [.loopClose]).trans hready
  obtain ⟨position, hturns⟩ := turns_after hmode hcell hcursor hbody hfront
  have hall : Op.loopOpen :: (body ++ [.loopClose]) <+: m.ready := hready
  obtain ⟨rest, hrest⟩ : [.loopClose] <+: (m.after (body.length + 1)).ready :=
    hturns.delivers.isPrefix_ready (hturns.entered.isPrefix_ready hall)
  obtain ⟨hfetched, hclose, hstep⟩ := step_of_close (hturns.counts.mode.trans hmode)
    hturns.delivers.cursor_le hrest.symm hturns.loops
  rw [hturns.cell, ← after_succ_eq_step] at hstep
  exact ⟨position, hturns, hfetched, hturns.delivers.trans hclose, hstep⟩

/-- A pass that does not bring the cell to zero leads back to the opening bracket, and the recording
has the whole loop from there on. -/
theorem turnsBack_after (hvalue : countedFrom m.tape.current body ≠ 0) :
    TurnsBack body m (m.after (body.length + 2)) := by
  obtain ⟨position, hturns, -, hdelivers, hstep⟩ := closes_after hmode hcell hcursor hbody hready
  have hentered := hturns.entered
  have hcounted := counts_counted (m.after (body.length + 1))
  have hcurrent : (m.after (body.length + 1)).counted.tape.current
      = countedFrom m.tape.current body := by
    rw [tape_counted, hturns.cell]
  generalize (m.after (body.length + 1)).counted = last at *
  rw [if_pos hvalue] at hstep
  obtain ⟨-, hops⟩ := hdelivers.recorded hentered.active
  have happend := hdelivers.unread_append hentered.active
  have hlength := congrArg List.length hentered.recorded
  rw [List.length_drop, List.length_cons, Array.length_toList] at hlength
  have hdropped : last.recording.ops.toList.drop position = enclose body ++ last.unread := by
    rw [hops, List.drop_append_of_le_length (by rw [Array.length_toList]; omega), hentered.recorded,
      List.cons_append, happend]
    rfl
  have hunread : (m.after (body.length + 2)).unread = enclose body ++ last.unread := by
    rw [hstep]
    exact hdropped
  have hsource : (m.after (body.length + 2)).source = last.source := by rw [hstep]
  have hcounts := hturns.counts.trans hcounted
  refine ⟨?_, by rw [hstep], by rw [hstep]; exact hcurrent, ?_, ?_, ?_, ?_, ?_⟩
  · rw [hstep]
    exact hcounts.withLoops _ _
  · have hlong := congrArg List.length hdropped
    rw [List.length_drop, List.length_append, Array.length_toList] at hlong
    rw [hstep]
    simp only [enclose, List.length_cons] at hlong
    change position ≤ last.recording.ops.size
    omega
  · rw [Machine.ready, hunread, hsource, hentered.ready, hdelivers.ready, List.append_assoc]
    rfl
  · rw [Machine.upcoming, hunread, hsource, hentered.upcoming, hdelivers.upcoming,
      List.append_assoc]
    rfl
  · rw [hunread]
    exact List.prefix_append _ _
  · intro hrecorded
    obtain ⟨hinner, hentry⟩ := hentered.replayed_of_isPrefix hrecorded
    rw [hsource, hdelivers.replayed hinner.length_le, hentry]

/-- The pass that brings the cell to zero leads out of the loop. -/
theorem turnsOut_after (hvalue : countedFrom m.tape.current body = 0)
    (hfollows : ∃ program read before, Follows program read before 0 (m.after (body.length + 1))) :
    TurnsOut body m (m.after (body.length + 2)) := by
  obtain ⟨position, hturns, hfetched, hdelivers, hstep⟩ :=
    closes_after hmode hcell hcursor hbody hready
  have houtermost : m.loops.positions = #[] →
      (m.after (body.length + 1)).counted.unread = [] := by
    intro hloops
    obtain ⟨_, _, _, hfollows⟩ := hfollows
    have hinner : (m.after (body.length + 1)).loops.positions.toList = [position] := by
      simp [hturns.loops, LoopStack.push, hloops]
    exact hfollows.unread_of_outermost hfetched hinner
  have hcounted := counts_counted (m.after (body.length + 1))
  have hcurrent : (m.after (body.length + 1)).counted.tape.current
      = countedFrom m.tape.current body := by
    rw [tape_counted, hturns.cell]
  generalize (m.after (body.length + 1)).counted = last at *
  rw [if_neg (not_not.mpr hvalue)] at hstep
  have hcounts := hturns.counts.trans hcounted
  refine ⟨?_, by rw [hstep], by rw [hstep]; exact hcurrent, ?_, ?_⟩
  · rw [hstep]
    exact hcounts.withLoops _ _
  · have hupcoming : (m.after (body.length + 2)).upcoming = last.upcoming := by
      rw [hstep]
      by_cases hempty : m.loops.isEmpty = true
      · have hnone := houtermost (by simpa [LoopStack.isEmpty] using hempty)
        rw [if_pos hempty, upcoming, upcoming, hnone, unread_of_empty rfl]
      · rw [if_neg hempty]
        rfl
    rw [hupcoming, hturns.entered.upcoming, hdelivers.upcoming]
    rfl
  · intro hloops
    rw [hstep]
    exact if_pos (by simpa [LoopStack.isEmpty] using hloops)

/-- How the machine stands within a pass. -/
theorem within_pass {made : Nat} (hlt : made < body.length + 2) :
    Counts made m (m.after made) ∧ (m.after made).upcoming = m.upcoming.drop made ∧
      (enclose body <+: m.unread → (m.after made).source = m.source) := by
  cases made with
  | zero => exact ⟨counts_zero m, rfl, fun _ => rfl⟩
  | succ made =>
    have hfront : Op.loopOpen :: body.take made <+: m.ready :=
      (List.cons_prefix_cons.mpr ⟨rfl, (List.take_prefix made body).trans
        (List.prefix_append body [.loopClose])⟩).trans hready
    obtain ⟨position, hentered, hdelivers, hcounts, -, -⟩ := turns_after hmode hcell hcursor
      (fun op hop => hbody op (List.mem_of_mem_take hop)) hfront
    have hlength : (body.take made).length = made := by
      rw [List.length_take]
      omega
    rw [hlength] at hdelivers hcounts
    refine ⟨hcounts, ?_, fun hrecorded => ?_⟩
    · rw [hentered.upcoming, List.drop_succ_cons, hdelivers.upcoming, List.drop_left' hlength]
    · obtain ⟨hinner, hentry⟩ := hentered.replayed_of_isPrefix hrecorded
      have hlong := hinner.length_le
      rw [List.length_append] at hlong
      rw [hdelivers.replayed (by omega), hentry]

end Pass

/-- The machine behind a number of passes, none of which has brought the cell to zero. -/
structure Circles (body : List Op) (passes : Nat) (m m' : Machine) : Prop where
  counts : Counts (passes * (body.length + 2)) m m'
  loops : m'.loops = m.loops
  cell : m'.tape.current.toNat
    = (m.tape.current.toNat + passes * netEffect body) % 256
  cursor_le : m'.recording.cursor ≤ m'.recording.ops.size
  ready : m'.ready = m.ready
  upcoming : m'.upcoming = m.upcoming
  replayed : 0 < passes →
    enclose body <+: m'.unread ∧ m'.source = (m.after (body.length + 2)).source

section Passes

variable (hmode : m.mode = .running) (hcell : m.tape.current ≠ 0)
  (hcursor : m.recording.cursor ≤ m.recording.ops.size) (hbody : ∀ op ∈ body, op.Counts)
  (hready : enclose body <+: m.ready) {passes : Nat}
  (hgoes : ∀ earlier, 0 < earlier → earlier ≤ passes →
    ¬256 ∣ m.tape.current.toNat + earlier * netEffect body)

include hcell hgoes in
theorem Circles.current_ne (h : Circles body passes m m') : m'.tape.current ≠ 0 := by
  rcases Nat.eq_zero_or_pos passes with rfl | hpos
  · have hvalue := h.cell
    rw [Nat.zero_mul, Nat.add_zero, Nat.mod_eq_of_lt (UInt8.toNat_lt _), UInt8.toNat_inj] at hvalue
    rwa [hvalue]
  · rw [ne_eq, eq_zero_iff_of_toNat h.cell]
    exact hgoes passes hpos (Nat.le_refl passes)

/-- What the next pass makes of the cell. -/
theorem Circles.countedFrom_eq_zero_iff (h : Circles body passes m m') :
    countedFrom m'.tape.current body = 0 ↔
      256 ∣ m.tape.current.toNat + (passes + 1) * netEffect body := by
  refine eq_zero_iff_of_toNat ?_
  rw [toNat_countedFrom, h.cell, Nat.mod_add_mod, Nat.succ_mul, Nat.add_assoc]

include hmode hcell hcursor hbody hready hgoes

/-- Passes that do not bring the cell to zero follow one another. -/
theorem circles_after : Circles body passes m (m.after (passes * (body.length + 2))) := by
  induction passes with
  | zero =>
    rw [Nat.zero_mul]
    refine ⟨?_, rfl, ?_, hcursor, rfl, rfl, fun hpos => absurd hpos (Nat.lt_irrefl 0)⟩
    · rw [Nat.zero_mul]
      exact counts_zero m
    · rw [Nat.zero_mul, Nat.add_zero, Nat.mod_eq_of_lt (UInt8.toNat_lt _), after_zero]
  | succ passes ih =>
    have hearlier : ∀ earlier, 0 < earlier → earlier ≤ passes →
        ¬256 ∣ m.tape.current.toNat + earlier * netEffect body :=
      fun earlier hpos hle => hgoes earlier hpos (Nat.le_succ_of_le hle)
    have hcircles := ih hearlier
    have hvalue := hcircles.countedFrom_eq_zero_iff.not.mpr
      (hgoes (passes + 1) (Nat.succ_pos passes) (Nat.le_refl _))
    have hturns := turnsBack_after (hcircles.counts.mode.trans hmode)
      (hcircles.current_ne hcell hearlier) hcircles.cursor_le hbody
      (by rw [hcircles.ready]; exact hready) hvalue
    rw [Nat.succ_mul, after_add]
    refine ⟨?_, hturns.loops.trans hcircles.loops, ?_, hturns.cursor_le,
      hturns.ready.trans hcircles.ready, hturns.upcoming.trans hcircles.upcoming,
      fun _ => ⟨hturns.unread, ?_⟩⟩
    · rw [Nat.succ_mul]
      exact hcircles.counts.trans hturns.counts
    · rw [hturns.cell, toNat_countedFrom, hcircles.cell, Nat.mod_add_mod, Nat.succ_mul,
        Nat.add_assoc]
    · rcases Nat.eq_zero_or_pos passes with rfl | hpos
      · rw [Nat.zero_mul, after_zero]
      · obtain ⟨hrecorded, hsource⟩ := hcircles.replayed hpos
        exact (hturns.replayed hrecorded).trans hsource

end Passes

/-- A machine that has made so many steps and is still in the loop. -/
structure Inside (body : List Op) (made : Nat) (m : Machine) : Prop where
  mode : (m.after made).mode = .running
  counts : Counts made m (m.after made)
  upcoming : (m.after made).upcoming = m.upcoming.drop (made % (body.length + 2))
  /-- Behind the first pass the program is not read. -/
  replayed : body.length + 2 ≤ made → (m.after made).source = (m.after (body.length + 2)).source

/-- A machine that has left the loop with so many steps. -/
structure Outside (body : List Op) (made : Nat) (m : Machine) : Prop where
  mode : (m.after made).mode = .running
  counts : Counts made m (m.after made)
  cell : (m.after made).tape.current = 0
  loops : (m.after made).loops = m.loops
  upcoming : (m.after made).upcoming = m.upcoming.drop (body.length + 2)
  outermost : m.loops.depth = 0 → (m.after made).recording = .empty

section Passes

variable (hmode : m.mode = .running) (hcell : m.tape.current ≠ 0)
  (hcursor : m.recording.cursor ≤ m.recording.ops.size) (hbody : ∀ op ∈ body, op.Counts)
  (hready : enclose body <+: m.ready) {passes : Nat}

include hmode hcell hcursor hbody hready

theorem inside_after {made : Nat} (hgoes : ∀ earlier, 0 < earlier →
      earlier ≤ made / (body.length + 2) →
      ¬256 ∣ m.tape.current.toNat + earlier * netEffect body) : Inside body made m := by
  have hcircles := circles_after hmode hcell hcursor hbody hready hgoes
  obtain ⟨hcounts, hupcoming, hreplayed⟩ := within_pass (hcircles.counts.mode.trans hmode)
    (hcircles.current_ne hcell hgoes) hcircles.cursor_le hbody
    (by rw [hcircles.ready]; exact hready) (Nat.mod_lt made (Nat.succ_pos (body.length + 1)))
  have hmade : made / (body.length + 2) * (body.length + 2) + made % (body.length + 2) = made :=
    Nat.div_add_mod' made _
  rw [← after_add, hmade] at hcounts hupcoming hreplayed
  have hall := hcircles.counts.trans hcounts
  rw [hmade] at hall
  refine ⟨hall.mode.trans hmode, hall, ?_, fun hle => ?_⟩
  · rw [hupcoming, hcircles.upcoming]
  · obtain ⟨hrecorded, hsource⟩ := hcircles.replayed (Nat.div_pos hle (Nat.succ_pos _))
    exact (hreplayed hrecorded).trans hsource

theorem outside_after (hfirst : FirstZero m.tape.current.toNat (netEffect body) passes)
    (hfollows : ∀ count, (m.after count).mode = .running →
      ∃ program read before, Follows program read before 0 (m.after count)) :
    Outside body (passes * (body.length + 2)) m := by
  obtain ⟨passes, rfl⟩ := Nat.exists_eq_add_one_of_ne_zero (Nat.ne_of_gt hfirst.pos)
  have hgoes : ∀ earlier, 0 < earlier → earlier ≤ passes →
      ¬256 ∣ m.tape.current.toNat + earlier * netEffect body := by
    intro earlier hpos hle hzero
    have hleast := hfirst.least earlier hpos hzero
    omega
  have hcircles := circles_after hmode hcell hcursor hbody hready hgoes
  have hstart := hcircles.counts.mode.trans hmode
  have hnonzero := hcircles.current_ne hcell hgoes
  have hagain : enclose body <+: (m.after (passes * (body.length + 2))).ready := by
    rw [hcircles.ready]
    exact hready
  have hlast : ∃ program read before, Follows program read before 0
      ((m.after (passes * (body.length + 2))).after (body.length + 1)) := by
    obtain ⟨position, hturns, -⟩ := closes_after hstart hnonzero hcircles.cursor_le hbody hagain
    rw [← after_add]
    refine hfollows _ ?_
    rw [after_add]
    exact hturns.counts.mode.trans hstart
  have hout := turnsOut_after hstart hnonzero hcircles.cursor_le hbody hagain
    (hcircles.countedFrom_eq_zero_iff.mpr hfirst.zero) hlast
  rw [← after_add] at hout
  have hmade : passes * (body.length + 2) + (body.length + 2)
      = (passes + 1) * (body.length + 2) := (Nat.succ_mul _ _).symm
  have hcounts := hcircles.counts.trans hout.counts
  rw [hmade] at hout hcounts
  refine ⟨hcounts.mode.trans hmode, hcounts, ?_, hout.loops.trans hcircles.loops, ?_, ?_⟩
  · rw [hout.cell]
    exact hcircles.countedFrom_eq_zero_iff.mpr hfirst.zero
  · have hlength : (enclose body).length = body.length + 2 := by simp [enclose]
    rw [← hcircles.upcoming, hout.upcoming, List.drop_left' hlength]
  · intro hdepth
    refine hout.outermost ?_
    rw [hcircles.loops]
    exact Array.size_eq_zero_iff.mp hdepth

end Passes

/-- What becomes of a machine that has a loop before it that only counts. -/
structure CountsOut (body : List Op) (m : Machine) : Prop where
  /-- The cell comes to zero after a number of passes, and then the loop is left. -/
  leaves : Nat.gcd (netEffect body) 256 ∣ m.tape.current.toNat → ∃ passes,
    FirstZero m.tape.current.toNat (netEffect body) passes ∧
      (body = [.decrement] → passes = m.tape.current.toNat) ∧
      (body = [.increment] → passes = 256 - m.tape.current.toNat) ∧
      (∀ made < passes * (body.length + 2),
        Inside body made m ∧ (m.after made).step.fault = none) ∧
      Outside body (passes * (body.length + 2)) m
  /-- The cell never comes to zero, and the loop is never left. -/
  stays : ¬Nat.gcd (netEffect body) 256 ∣ m.tape.current.toNat →
    ∀ made, Inside body made m ∧ (m.after made).step.fault = none

theorem countsOut (hmode : m.mode = .running) (hcell : m.tape.current ≠ 0)
    (hfollows : ∀ count, (m.after count).mode = .running →
      ∃ program read before, Follows program read before 0 (m.after count))
    (hbody : ∀ op ∈ body, op.Counts) (hready : enclose body <+: m.ready) : CountsOut body m := by
  obtain ⟨_, _, _, hstart⟩ := hfollows 0 hmode
  have hcursor : m.recording.cursor ≤ m.recording.ops.size := hstart.cursor_le
  have hpos : 0 < m.tape.current.toNat := by
    rw [Nat.pos_iff_ne_zero]
    intro hzero
    exact hcell (UInt8.toNat_inj.mp hzero)
  have hquiet : ∀ made, (m.after (made + 1)).mode = .running →
      (m.after made).step.fault = none := by
    intro made hnext
    refine fault_eq_none_of_goes ?_
    rw [← after_succ_eq_step, hnext]
    simp
  refine ⟨fun hdvd => ?_, fun hnever => ?_⟩
  · obtain ⟨passes, hfirst⟩ := exists_firstZero hdvd
    have hinside : ∀ made < passes * (body.length + 2), Inside body made m := by
      intro made hlt
      refine inside_after hmode hcell hcursor hbody hready fun earlier hearlier hle hzero => ?_
      have hfew : made / (body.length + 2) < passes :=
        Nat.div_lt_of_lt_mul (by rwa [Nat.mul_comm])
      have hleast := hfirst.least earlier hearlier hzero
      omega
    have houtside := outside_after hmode hcell hcursor hbody hready hfirst hfollows
    refine ⟨passes, hfirst, ?_, ?_, fun made hlt => ⟨hinside made hlt, hquiet made ?_⟩, houtside⟩
    · rintro rfl
      exact hfirst.of_decrement hpos (UInt8.toNat_lt _)
    · rintro rfl
      exact hfirst.of_increment hpos (UInt8.toNat_lt _)
    · rcases Nat.lt_or_eq_of_le (Nat.succ_le_of_lt hlt) with hnext | hnext
      · exact (hinside (made + 1) hnext).mode
      · rw [show made + 1 = passes * (body.length + 2) from hnext]
        exact houtside.mode
  · have hinside : ∀ made, Inside body made m := fun made =>
      inside_after hmode hcell hcursor hbody hready fun earlier hearlier _ hzero =>
        hnever ((exists_zero_iff (by decide)).mp ⟨earlier, hearlier, hzero⟩)
    exact fun made => ⟨hinside made, hquiet made (hinside (made + 1)).mode⟩

/-- In every state of a run a loop that only counts is left with the step with which the cell first
comes to zero at its end, and is never left if there is no such step. -/
theorem countsOut_after (config : Config) (program input : List ReadEvent) (sink : Sink)
    {count : Nat} (hmode : ((initial config program input sink).after count).mode = .running)
    (hcell : ((initial config program input sink).after count).tape.current ≠ 0)
    (hbody : ∀ op ∈ body, op = .increment ∨ op = .decrement)
    (hready : enclose body <+: ((initial config program input sink).after count).ready) :
    CountsOut body ((initial config program input sink).after count) := by
  refine countsOut hmode hcell (fun later hrunning => ?_) hbody hready
  rw [← after_add] at hrunning ⊢
  obtain ⟨read, before, depth, hfollows⟩ :=
    followsAfter_of_mode config program input sink (count + later) (by simp [hrunning])
  have hdepth : depth = 0 := within_injective (hfollows.mode ▸ hrunning)
  exact ⟨program, read, before, hdepth ▸ hfollows.toFollows⟩

/-- A cell with the value 2 is counted down to zero in two passes of three steps each. -/
theorem countsOut_after_decrement :
    ((initial { tapeSize := 3 } ([43, 43, 91, 45, 93, 46].map .byte) [] .accepting).after 2).mode
        = .running ∧
      ((initial { tapeSize := 3 } ([43, 43, 91, 45, 93, 46].map .byte) [] .accepting).after
        2).tape.current ≠ 0 ∧
      enclose [.decrement] <+: ((initial { tapeSize := 3 } ([43, 43, 91, 45, 93, 46].map .byte) []
        .accepting).after 2).ready ∧
      Outside [.decrement] (2 * 3) ((initial { tapeSize := 3 }
        ([43, 43, 91, 45, 93, 46].map .byte) [] .accepting).after 2) := by
  have hready : enclose [.decrement] <+: ((initial { tapeSize := 3 }
      ([43, 43, 91, 45, 93, 46].map .byte) [] .accepting).after 2).ready := by decide
  have hcounts := countsOut_after { tapeSize := 3 } ([43, 43, 91, 45, 93, 46].map .byte) []
    .accepting (by decide) (by decide) (by decide) hready
  obtain ⟨passes, -, hdecrement, -, -, houtside⟩ := hcounts.leaves (by decide)
  obtain rfl : passes = 2 := hdecrement rfl
  exact ⟨by decide, by decide, hready, houtside⟩

end TapeMachine.Machine
