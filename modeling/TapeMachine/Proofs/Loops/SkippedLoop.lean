import TapeMachine.Proofs.Brackets.Insertion
import TapeMachine.Proofs.Machine.Representation
import TapeMachine.Proofs.Machine.StepReports
import TapeMachine.Proofs.Machine.Supply
import TapeMachine.Proofs.Machine.Unfailing

/-!
# Loops that are skipped

A loop on a zero cell is passed over operation by operation, with the brackets still to be closed
counted on the way. It ends with the bracket that closes the loop, with the end of the program or
with a failed read, and until then the machine does nothing but fetch: whatever is passed over, it
is recorded inside another loop, and has no other effect.
-/

namespace TapeMachine

namespace Brackets

/-- The operations start with a bracket that they do not close. -/
def StartsUnclosed (ops : List Op) : Prop :=
  ops.head? = some .loopOpen ∧ ∀ body rest, Balanced body → ops ≠ enclose body ++ rest

/-- What follows a bracket that is not closed never closes more than it opens. -/
theorem StartsUnclosed.exists_depth {ops : List Op} (h : StartsUnclosed ops) :
    ∃ body final, ops = .loopOpen :: body ∧ depthFrom 0 body = some final := by
  obtain ⟨hhead, hunclosed⟩ := h
  obtain ⟨body, rfl⟩ := List.head?_eq_some_iff.mp hhead
  cases hdepth : depthFrom 0 body with
  | some final => exact ⟨body, final, rfl, hdepth⟩
  | none =>
    obtain ⟨inner, rest, rfl, hbalanced⟩ := exists_unmatched hdepth
    refine absurd ?_ (hunclosed inner rest hbalanced)
    simp [enclose]

/-- Inside a bracket that is not closed some bracket is always open. -/
theorem depthFrom_take_opened {body : List Op} {final length : Nat}
    (h : depthFrom 0 body = some final) (hpos : 0 < length) :
    ∃ depth, depthFrom 0 ((Op.loopOpen :: body).take length) = some (depth + 1) ∧
      depthFrom 0 (body.take (length - 1)) = some depth := by
  obtain ⟨length, rfl⟩ := Nat.exists_eq_add_one_of_ne_zero (Nat.ne_of_gt hpos)
  rw [← List.take_append_drop length body] at h
  obtain ⟨depth, hdepth, -⟩ := depthFrom_of_append h
  refine ⟨depth, ?_, hdepth⟩
  have hopened := depthFrom_add hdepth 1
  rw [Nat.add_comm 1 depth] at hopened
  exact hopened

end Brackets

namespace Machine

open Brackets

variable {m : Machine} {op : Op} {body front rest : List Op} {depth final : Nat}

/-- A machine that has counted one operation more and fetched some. -/
def SkipsFrom (m m' : Machine) : Prop :=
  m' = { m with
    steps := m.steps + 1
    recording := m'.recording
    source := m'.source
    mode := m'.mode
    unclosedLoops := m'.unclosedLoops }

theorem SkipsFrom.trans {m' m'' : Machine} (h : SkipsFrom m m') (h' : SkipsTo m' m'') :
    SkipsFrom m m'' := by
  unfold SkipsFrom at h ⊢
  unfold SkipsTo at h'
  rw [h] at h'
  rw [h']

/-- One operation is fetched and passed over. -/
theorem skip_ready (hmode : m.mode = .skipping (depth + 1))
    (hcursor : m.recording.cursor ≤ m.recording.ops.size) (hready : m.ready = op :: rest) :
    Delivers [op] m m.step.machine ∧ SkipsTo m m.step.machine ∧
      m.step.machine.mode = .within (depthAfter (depth + 1) op) := by
  obtain ⟨hfetched, hdelivers⟩ := fetch_ready hcursor hready
  have hstep : m.step
      = .quiet { m.fetch.2 with mode := .within (depthAfter (depth + 1) op) } := by
    rw [step_of_skipping hmode, skipNext_of_op (Prod.ext hfetched rfl)]
  rw [hstep]
  refine ⟨hdelivers.of_same rfl rfl, ?_, rfl⟩
  have hsame := fetch_same m
  generalize m.fetch.2 = fetched at hsame
  rw [hsame]
  rfl

/-- Operations that leave the skipped bracket open are passed over all. -/
theorem skip_ready_run (hmode : m.mode = .skipping (depth + 1))
    (hcursor : m.recording.cursor ≤ m.recording.ops.size) (hready : body <+: m.ready)
    (hbody : depthFrom depth body = some final) :
    Delivers body m (m.after body.length) ∧ SkipsTo m (m.after body.length) ∧
      (m.after body.length).mode = .skipping (final + 1) := by
  -- The machine counts the skipped bracket itself, so its depth is one more than that of the body.
  induction body generalizing m depth with
  | nil =>
    obtain rfl := Option.some.inj hbody
    exact ⟨delivers_nil hcursor, rfl, hmode⟩
  | cons op body ih =>
    obtain ⟨rest, hrest⟩ := hready
    obtain ⟨hdelivers, hskips, hnext⟩ := skip_ready hmode hcursor hrest.symm
    have hprefix : body <+: m.step.machine.ready := hdelivers.isPrefix_ready ⟨rest, hrest⟩
    have hrun : ∀ {between}, m.step.machine.mode = .skipping (between + 1) →
        depthFrom between body = some final →
        Delivers (op :: body) m (m.step.machine.after body.length) ∧
          SkipsTo m (m.step.machine.after body.length) ∧
          (m.step.machine.after body.length).mode = .skipping (final + 1) := by
      intro between hbetween hdepth
      obtain ⟨hdelivers', hskips', hlast⟩ := ih hbetween hdelivers.cursor_le hprefix hdepth
      exact ⟨hdelivers.trans hdelivers', hskips.trans hskips', hlast⟩
    rw [List.length_cons, after_succ]
    cases op using bracketCases with
    | opening => exact hrun hnext hbody
    | closing =>
      cases depth with
      | zero => simp [depthFrom] at hbody
      | succ depth => exact hrun hnext hbody
    | plain op hp =>
      rw [depthAfter_plain hp] at hnext
      rw [depthFrom_plain hp] at hbody
      exact hrun hnext hbody

/-- A loop that stands on a zero cell is not entered. -/
theorem step_of_open (hmode : m.mode = .running) (hcell : m.tape.current = 0)
    (hcursor : m.recording.cursor ≤ m.recording.ops.size) (hready : m.ready = .loopOpen :: rest) :
    Delivers [.loopOpen] m m.step.machine ∧ SkipsFrom m m.step.machine ∧
      m.step.machine.mode = .skipping 1 := by
  obtain ⟨hfetched, hdelivers⟩ := fetch_ready hcursor hready
  have hstep : m.step.machine = { m.counted with mode := .skipping 1 } := by
    rw [step_of_executed (executed?_eq_some_iff.mpr ⟨hmode, hfetched⟩), execute,
      enterLoop_of_zero (by rw [tape_counted]; exact hcell)]
    rfl
  rw [hstep]
  refine ⟨hdelivers.of_same rfl rfl, ?_, rfl⟩
  have hsame := fetch_same m
  unfold counted
  generalize m.fetch.2 = fetched at hsame
  rw [hsame]
  rfl

/-- How a machine stands that has come so far in operations that it passes over. -/
structure Passes (front : List Op) (depth : Nat) (m m' : Machine) : Prop where
  delivers : Delivers front m m'
  skips : SkipsFrom m m'
  mode : m'.mode = .skipping (depth + 1)
  depth_eq : depthFrom 0 front = some (depth + 1)

/-- From a running machine on a zero cell all is passed over up to the bracket that closes the
loop. -/
theorem passes_after (hmode : m.mode = .running) (hcell : m.tape.current = 0)
    (hcursor : m.recording.cursor ≤ m.recording.ops.size)
    (hready : .loopOpen :: body <+: m.ready) (hbody : depthFrom 0 body = some final) :
    ∀ made, 0 < made → made ≤ body.length + 1 →
      ∃ depth, Passes ((Op.loopOpen :: body).take made) depth m (m.after made) := by
  intro made hpos hle
  obtain ⟨depth, hdepth, hinner⟩ := depthFrom_take_opened hbody hpos
  obtain ⟨passed, rfl⟩ := Nat.exists_eq_add_one_of_ne_zero (Nat.ne_of_gt hpos)
  obtain ⟨rest, hrest⟩ := hready
  obtain ⟨hdelivers, hskips, hnext⟩ := step_of_open hmode hcell hcursor hrest.symm
  have hprefix : body.take passed <+: m.step.machine.ready :=
    (List.take_prefix passed body).trans (hdelivers.isPrefix_ready ⟨rest, hrest⟩)
  obtain ⟨hdelivers', hskips', hlast⟩ := skip_ready_run hnext hdelivers.cursor_le hprefix hinner
  rw [List.length_take, Nat.min_eq_left (by omega)] at hdelivers' hskips' hlast
  exact ⟨depth, hdelivers.trans hdelivers', hskips.trans hskips', hlast, hdepth⟩

/-- What holds of the machine over a number of calls in which it passes over operations. -/
structure SkipsOver (passed : List Op) (calls : Nat) (m : Machine) : Prop where
  unaffected : ∀ made, 0 < made → made ≤ calls → SkipsFrom m (m.after made)
  quiet : ∀ made, made + 1 < calls → (m.after made).step.fault = none
  skipping : ∀ made, 0 < made → made < calls →
    ∃ depth, depthFrom 0 (passed.take made) = some (depth + 1) ∧
      (m.after made).mode = .skipping (depth + 1)
  delivers : ∀ made ≤ passed.length, Delivers (passed.take made) m (m.after made)
  unrecorded : m.recording.ops = #[] → ∀ made ≤ calls, (m.after made).recording = m.recording

/-- How the calls end with which a loop on a zero cell is skipped. -/
structure SkipsLoop (m : Machine) : Prop where
  /-- The loop is closed, and all of it is read without a failure. -/
  closed : ∀ body rest, Balanced body → m.upcoming = enclose body ++ rest →
    enclose body <+: m.ready → SkipsOver (enclose body) (body.length + 2) m ∧
      (m.after (body.length + 1)).step.fault = none ∧
      (m.after (body.length + 2)).mode = .running ∧ (m.after (body.length + 2)).upcoming = rest
  /-- The loop is not closed before the program ends. -/
  ended : StartsUnclosed m.upcoming → m.source.Unfailing →
    SkipsOver m.upcoming (m.upcoming.length + 1) m ∧
      (m.after m.upcoming.length).step.fault = none ∧
      (m.after (m.upcoming.length + 1)).mode = .halted ∧
      (m.after (m.upcoming.length + 1)).unclosedLoops
        = m.loops.depth + (openPositions m.upcoming).length
  /-- The loop is not closed before a read fails. What is passed over is then what comes before the
  failure, as nothing behind it is ever fetched. -/
  failed : ∀ error, StartsUnclosed m.ready → m.source.failure? = some error →
    SkipsOver m.ready (m.ready.length + 1) m ∧
      (m.after m.ready.length).step.fault = some (.unavailable .program error) ∧
      (m.after (m.ready.length + 1)).mode = .halted
  /-- The read fails before anything is fetched, so no loop has begun: the step is not counted, and
  nothing but the source is touched. -/
  unfetched : ∀ error, m.ready = [] → m.source.failure? = some error →
    m.step.fault = some (.unavailable .program error) ∧
      m.step.machine = { m with source := m.step.machine.source, mode := .halted }

/-- A machine that skips and has nothing left before a failure halts. -/
theorem skip_spent (hmode : m.mode = .skipping (depth + 1)) (hready : m.ready = []) :
    m.step = (match m.source.failure? with
      | some error => .failed (.unavailable .program error) m.fetch.2
      | none => .ended (m.loops.depth + (depth + 1)) m.fetch.2) ∧
      m.step.machine.recording = m.recording ∧ m.step.machine.mode = .halted ∧
      m.step.machine = { m with
        recording := m.step.machine.recording
        source := m.step.machine.source
        mode := m.step.machine.mode
        unclosedLoops := m.step.machine.unclosedLoops } := by
  obtain ⟨hfetched, hrecording⟩ := fetch_spent hready
  have hsame := fetch_same m
  have hloops : m.fetch.2.loops = m.loops := by rw [hsame]
  have hfetch : m.fetch = (_, m.fetch.2) := Prod.ext hfetched rfl
  rw [step_of_skipping hmode, skipNext]
  generalize m.fetch.2 = fetched at hrecording hsame hloops hfetch ⊢
  rw [hfetch]
  cases m.source.failure? with
  | none =>
    dsimp only
    refine ⟨by rw [hloops], hrecording, rfl, ?_⟩
    rw [hsame]
    rfl
  | some error =>
    refine ⟨rfl, hrecording, rfl, ?_⟩
    rw [hsame]
    rfl

section Skipping

variable {passed : List Op} (hpasses : ∀ made, 0 < made → made ≤ body.length + 1 →
  ∃ depth, Passes ((Op.loopOpen :: body).take made) depth m (m.after made))

include hpasses

/-- All that has to be told of the last call. -/
theorem skipsOver_of_last (hcursor : m.recording.cursor ≤ m.recording.ops.size)
    (hlast : SkipsFrom m (m.after (body.length + 2)))
    (htake : ∀ made ≤ body.length + 1, passed.take made = (Op.loopOpen :: body).take made)
    (hdelivers : ∀ made ≤ passed.length, body.length + 1 < made →
      Delivers (passed.take made) m (m.after made))
    (hrecording : m.recording.ops = #[] → (m.after (body.length + 2)).recording = m.recording) :
    SkipsOver passed (body.length + 2) m where
  unaffected made hpos hle := by
    rcases Nat.lt_or_eq_of_le hle with hlt | rfl
    · obtain ⟨depth, hstands⟩ := hpasses made hpos (Nat.le_of_lt_succ hlt)
      exact hstands.skips
    · exact hlast
  quiet made hlt := by
    obtain ⟨depth, hstands⟩ := hpasses (made + 1) (Nat.succ_pos made) (by omega)
    refine fault_eq_none_of_goes ?_
    rw [← after_succ_eq_step, hstands.mode]
    simp
  skipping made hpos hlt := by
    obtain ⟨depth, hstands⟩ := hpasses made hpos (Nat.le_of_lt_succ hlt)
    exact ⟨depth, htake made (Nat.le_of_lt_succ hlt) ▸ hstands.depth_eq, hstands.mode⟩
  delivers made hle := by
    by_cases hinner : made ≤ body.length + 1
    · rcases Nat.eq_zero_or_pos made with rfl | hpos
      · exact delivers_nil hcursor
      · obtain ⟨depth, hstands⟩ := hpasses made hpos hinner
        exact htake made hinner ▸ hstands.delivers
    · exact hdelivers made hle (Nat.lt_of_not_le hinner)
  unrecorded hinactive made hle := by
    rcases Nat.lt_or_eq_of_le hle with hlt | rfl
    · rcases Nat.eq_zero_or_pos made with rfl | hpos
      · rfl
      · obtain ⟨depth, hstands⟩ := hpasses made hpos (Nat.le_of_lt_succ hlt)
        exact hstands.delivers.unrecorded hinactive
    · exact hrecording hinactive

/-- The bracket that closes the loop is passed over as well. -/
theorem skips_closed (hcursor : m.recording.cursor ≤ m.recording.ops.size)
    (hready : enclose body <+: m.ready) (hbody : Balanced body) :
    SkipsOver (enclose body) (body.length + 2) m ∧
      (m.after (body.length + 2)).mode = .running ∧
      Delivers (enclose body) m (m.after (body.length + 2)) := by
  obtain ⟨depth, hstands⟩ := hpasses (body.length + 1) (Nat.succ_pos _) (Nat.le_refl _)
  have hfront : (Op.loopOpen :: body).take (body.length + 1) = .loopOpen :: body :=
    List.take_of_length_le (Nat.le_refl _)
  have hall : enclose body = (Op.loopOpen :: body) ++ [.loopClose] := rfl
  obtain ⟨hdelivered, hskips, hmode, hdepth⟩ := hstands
  rw [hfront] at hdelivered hdepth
  obtain rfl : depth = 0 := by
    have hopened : depthFrom 0 (Op.loopOpen :: body) = some (0 + 1) := hbody.depthFrom 1
    rw [hopened] at hdepth
    simpa using hdepth.symm
  rw [hall] at hready
  obtain ⟨rest, hrest⟩ := hdelivered.isPrefix_ready hready
  obtain ⟨hclose, hlast, hnext⟩ := skip_ready hmode hdelivered.cursor_le hrest.symm
  rw [← after_succ_eq_step] at hclose hlast hnext
  have hdelivers := hall ▸ hdelivered.trans hclose
  refine ⟨skipsOver_of_last hpasses hcursor (hskips.trans hlast) ?_ ?_ hdelivers.unrecorded, hnext,
    hdelivers⟩
  · intro made hle
    rw [hall]
    exact List.take_append_of_le_length hle
  · intro made hle hlt
    obtain rfl : made = body.length + 2 := by
      simp only [enclose, List.length_cons, List.length_append, List.length_nil] at hle
      omega
    rwa [List.take_of_length_le (by simp [enclose])]

/-- Nothing comes behind the operations that are passed over. -/
theorem skips_spent (hcursor : m.recording.cursor ≤ m.recording.ops.size)
    (hready : m.ready = .loopOpen :: body) :
    SkipsOver m.ready (m.ready.length + 1) m ∧
      (m.after m.ready.length).step = (match m.source.failure? with
        | some error => .failed (.unavailable .program error) (m.after m.ready.length).fetch.2
        | none => .ended (m.loops.depth + (openPositions m.ready).length)
          (m.after m.ready.length).fetch.2) ∧
      (m.after (m.ready.length + 1)).mode = .halted := by
  obtain ⟨depth, hstands⟩ := hpasses (body.length + 1) (Nat.succ_pos _) (Nat.le_refl _)
  have hfront : (Op.loopOpen :: body).take (body.length + 1) = .loopOpen :: body :=
    List.take_of_length_le (Nat.le_refl _)
  obtain ⟨hdelivered, hskips, hmode, hdepth⟩ := hstands
  rw [hfront] at hdelivered hdepth
  have hnone : (m.after (body.length + 1)).ready = [] := by
    have hall := hdelivered.ready
    rw [hready] at hall
    exact List.append_cancel_left (hall.symm.trans (List.append_nil _).symm)
  obtain ⟨hstep, hrecording, hhalts, hsame⟩ := skip_spent hmode hnone
  have hloops : (m.after (body.length + 1)).loops = m.loops := by rw [hskips]
  rw [hdelivered.failure, hloops] at hstep
  rw [← after_succ_eq_step] at hrecording hhalts hsame
  have hlast : SkipsFrom m (m.after (body.length + 2)) := by
    unfold SkipsFrom at hskips ⊢
    rw [hskips] at hsame
    exact hsame
  rw [hready, length_openPositions hdepth]
  refine ⟨skipsOver_of_last hpasses hcursor hlast (fun _ _ => rfl) ?_ ?_, hstep, hhalts⟩
  · intro made hle hlt
    exact absurd hle (Nat.not_le.mpr hlt)
  · intro hinactive
    rw [hrecording, hdelivered.unrecorded hinactive]

end Skipping

/-- A running machine that has nothing left before a failure fails in its next step. -/
theorem step_of_unfetched {error : IoError} (hmode : m.mode = .running) (hready : m.ready = [])
    (hfails : m.source.failure? = some error) :
    m.step.fault = some (.unavailable .program error) ∧
      m.step.machine = { m with source := m.step.machine.source, mode := .halted } := by
  obtain ⟨hfetched, hrecording⟩ := fetch_spent hready
  have hsame := fetch_same m
  rw [hrecording] at hsame
  rw [hfails] at hfetched
  have hstep : m.step = .failed (.unavailable .program error) m.fetch.2 := by
    rw [step_of_running hmode, executeNext, show m.fetch = (_, m.fetch.2) from Prod.ext hfetched rfl]
  rw [hstep]
  refine ⟨rfl, ?_⟩
  rw [hsame]
  rfl

/-- On a zero cell a loop is skipped, whatever it holds and wherever its operations come from. -/
theorem skipsLoop (hmode : m.mode = .running) (hcell : m.tape.current = 0)
    (hcursor : m.recording.cursor ≤ m.recording.ops.size) : SkipsLoop m where
  closed body rest hbody hupcoming hready := by
    have hfront : Op.loopOpen :: body <+: m.ready :=
      (List.prefix_append (Op.loopOpen :: body) [.loopClose]).trans hready
    obtain ⟨hover, hrunning, hdelivers⟩ :=
      skips_closed (passes_after hmode hcell hcursor hfront hbody) hcursor hready hbody
    refine ⟨hover, fault_eq_none_of_goes ?_, hrunning, ?_⟩
    · rw [← after_succ_eq_step, hrunning]
      simp
    · exact List.append_cancel_left (hdelivers.upcoming.symm.trans hupcoming)
  ended hunclosed hun := by
    have hnone := Source.unfailing_iff.mp hun
    rw [← ready_of_unfailing hnone] at hunclosed ⊢
    obtain ⟨body, final, hready, hbody⟩ := hunclosed.exists_depth
    have hfront : Op.loopOpen :: body <+: m.ready := hready ▸ List.prefix_rfl
    obtain ⟨hover, hstep, hhalts⟩ :=
      skips_spent (passes_after hmode hcell hcursor hfront hbody) hcursor hready
    rw [hnone] at hstep
    refine ⟨hover, by rw [hstep]; rfl, hhalts, ?_⟩
    rw [after_succ_eq_step, hstep]
    rfl
  failed error hunclosed hfails := by
    obtain ⟨body, final, hready, hbody⟩ := hunclosed.exists_depth
    have hfront : Op.loopOpen :: body <+: m.ready := hready ▸ List.prefix_rfl
    obtain ⟨hover, hstep, hhalts⟩ :=
      skips_spent (passes_after hmode hcell hcursor hfront hbody) hcursor hready
    rw [hfails] at hstep
    exact ⟨hover, by rw [hstep]; rfl, hhalts⟩
  unfetched _ := step_of_unfetched hmode

/-- A running machine on a zero cell skips the loop before it, in every state of a run. -/
theorem skipsLoop_after (config : Config) (program input : List ReadEvent) (sink : Sink)
    {count : Nat} (hmode : ((initial config program input sink).after count).mode = .running)
    (hcell : ((initial config program input sink).after count).tape.current = 0) :
    SkipsLoop ((initial config program input sink).after count) := by
  obtain ⟨_, _, _, hfollows⟩ :=
    followsAfter_of_mode config program input sink count (by simp [hmode])
  exact skipsLoop hmode hcell hfollows.cursor_le

/-- A loop with an input operation is skipped inside a loop that is run through, and recorded. -/
theorem skipsLoop_after_inner :
    ((initial { tapeSize := 3 } ([43, 91, 62, 91, 44, 93, 60, 45, 93].map .byte) []
        .accepting).after 3).mode = .running ∧
      ((initial { tapeSize := 3 } ([43, 91, 62, 91, 44, 93, 60, 45, 93].map .byte) []
        .accepting).after 3).tape.current = 0 ∧
      SkipsOver (enclose [.input]) 3 ((initial { tapeSize := 3 }
        ([43, 91, 62, 91, 44, 93, 60, 45, 93].map .byte) [] .accepting).after 3) :=
  ⟨by decide, by decide, ((skipsLoop_after { tapeSize := 3 }
    ([43, 91, 62, 91, 44, 93, 60, 45, 93].map .byte) [] .accepting (by decide) (by decide)).closed
      [.input] [.left, .decrement, .loopClose] (by decide) (by decide) (by decide)).1⟩

end Machine

end TapeMachine
