import Mathlib.Data.List.Induction
import TapeMachine.Proofs.Loops.CommentLoop
import TapeMachine.Proofs.Loops.SkippedLoop

/-!
# Programs that do nothing

A program of which every effect stands inside brackets never moves the cursor or changes a cell. So
no loop is ever entered: each one at the top level is skipped, its opening bracket is all that is
counted of it, and the run ends with the text, or at the first bracket that closes nothing.
-/

namespace TapeMachine

namespace Brackets

open Listing

instance (op : Op) : Decidable (Plain op) :=
  inferInstanceAs (Decidable (op ≠ .loopOpen ∧ op ≠ .loopClose))

/-- Some bracket is open before every operation that is no bracket. Behind an unmatched bracket any
operation may stand, for no part of a sequence that holds one is balanced. -/
def EffectsEnclosed (ops : List Op) : Prop :=
  ∀ place (h : place < ops.length), Plain ops[place] → ¬Balanced (ops.take place)

instance (ops : List Op) : Decidable (EffectsEnclosed ops) :=
  inferInstanceAs (Decidable (∀ place (h : place < ops.length),
    Plain ops[place] → ¬Balanced (ops.take place)))

/-- The number of opening brackets before which nothing is open. -/
def topLevelLoops (ops : List Op) : Nat :=
  (List.range ops.length).countP fun place =>
    ops[place]? = some .loopOpen ∧ Balanced (ops.take place)

variable {ops front : List Op} {op : Op} {text : List UInt8} {offset depth : Nat}

theorem EffectsEnclosed.not_balanced (h : EffectsEnclosed ops) (hfront : front ++ [op] <+: ops)
    (hp : Plain op) : ¬Balanced front := by
  obtain ⟨rest, rfl⟩ := hfront
  have hplace := h front.length (by simp)
  simp only [List.append_assoc, List.take_left] at hplace
  apply hplace
  simpa using hp

theorem topLevelLoops_concat (front : List Op) (op : Op) : topLevelLoops (front ++ [op])
    = topLevelLoops front + if op = .loopOpen ∧ Balanced front then 1 else 0 := by
  have hearlier : ∀ place ∈ List.range front.length,
      (decide ((front ++ [op])[place]? = some .loopOpen ∧ Balanced ((front ++ [op]).take place))
          = true ↔
        decide (front[place]? = some .loopOpen ∧ Balanced (front.take place)) = true) := by
    intro place hmem
    have hlt := List.mem_range.mp hmem
    rw [List.getElem?_append_left hlt, List.take_append_of_le_length (Nat.le_of_lt hlt)]
  rw [topLevelLoops, List.length_append, List.length_singleton, List.range_succ,
    List.countP_append, List.countP_congr hearlier, List.countP_singleton,
    List.getElem?_concat_length, List.take_left]
  simp only [decide_eq_true_eq, Option.some.injEq]
  rfl

/-- A loop at the top level counts. -/
theorem topLevelLoops_open (h : Balanced front) :
    topLevelLoops (front ++ [.loopOpen]) = topLevelLoops front + 1 := by
  rw [topLevelLoops_concat, if_pos ⟨rfl, h⟩]

/-- Nothing counts inside a loop. -/
theorem topLevelLoops_inside (h : depthFrom 0 front = some (depth + 1)) (op : Op) :
    topLevelLoops (front ++ [op]) = topLevelLoops front := by
  rw [topLevelLoops_concat, if_neg, Nat.add_zero]
  rintro ⟨-, hbalanced⟩
  rw [Balanced, h] at hbalanced
  simp at hbalanced

/-- Only the two top-level loops of three count. -/
example : topLevelLoops (operations [91, 91, 93, 43, 93, 35, 91]) = 2 := by decide

/-- A text either has a depth, or is balanced up to a closing bracket. -/
theorem exists_depth_or_split (text : List UInt8) :
    (∃ depth, depthFrom 0 (operations text) = some depth) ∨
      ∃ front rest, text = front ++ Op.loopClose.byte :: rest ∧ Balanced (operations front) := by
  cases hdepth : depthFrom 0 (operations text) with
  | some depth => exact Or.inl ⟨depth, rfl⟩
  | none =>
    obtain ⟨body, tail, hsplit, hbalanced⟩ := exists_unmatched hdepth
    obtain ⟨front, behind, rfl, rfl, hbehind⟩ := List.filterMap_eq_append_iff.mp hsplit
    obtain ⟨comment, byte, rest, rfl, hcomment, hbyte, -⟩ := List.filterMap_eq_cons_iff.mp hbehind
    -- Comments before the bracket belong to the balanced part.
    refine Or.inr ⟨front ++ comment, rest, ?_, ?_⟩
    · rw [Op.eq_byte_of_ofByte? hbyte, List.append_assoc]
    · have hnone : operations comment = [] := List.filterMap_eq_nil_iff.mpr hcomment
      rw [operations_append, hnone, List.append_nil]
      exact hbalanced

/-- The first unmatched bracket stands behind a balanced text. -/
theorem FirstUnmatched.split (h : FirstUnmatched text offset) :
    Balanced (operations (text.take offset)) ∧ ∃ rest,
      operations text = operations (text.take offset) ++ .loopClose :: rest := by
  rcases exists_depth_or_split text with ⟨depth, hdepth⟩ | ⟨front, rest, rfl, hbalanced⟩
  · exact absurd h ((neverOverclosed_of_depth hdepth).1.not_firstUnmatched offset)
  · obtain rfl := h.unique (firstUnmatched_of_balanced hbalanced rest)
    rw [List.take_left]
    refine ⟨hbalanced, operations rest, ?_⟩
    rw [operations_append]
    rfl

/-- A text without an unmatched bracket has a depth. -/
theorem exists_depth_of_matched (h : ∀ offset, ¬FirstUnmatched text offset) :
    ∃ depth, depthFrom 0 (operations text) = some depth := by
  rcases exists_depth_or_split text with hdepth | ⟨front, rest, rfl, hbalanced⟩
  · exact hdepth
  · exact absurd (firstUnmatched_of_balanced hbalanced rest) (h front.length)

end Brackets

namespace Machine

open Brackets Listing

variable {m m' m'' : Machine} {front rest : List Op} {op : Op} {depth final last offset : Nat}
  {config : Config} {program input : List ReadEvent} {sink : Sink} {text : List UInt8}

/-- A machine that has read on in its program and counted, and has done nothing else. -/
def Unaffected (m m' : Machine) : Prop :=
  m' = { m with
    source := m'.source
    mode := m'.mode
    steps := m'.steps
    unclosedLoops := m'.unclosedLoops }

theorem Unaffected.trans (h : Unaffected m m') (h' : Unaffected m' m'') : Unaffected m m'' := by
  unfold Unaffected at h h' ⊢
  rw [h] at h'
  exact h'

theorem SkipsFrom.unaffected (h : SkipsFrom m m') (hrecording : m'.recording = m.recording) :
    Unaffected m m' := by
  rw [SkipsFrom, hrecording] at h
  rw [Unaffected, h]

theorem SkipsTo.unaffected (h : SkipsTo m m') (hrecording : m'.recording = m.recording) :
    Unaffected m m' := by
  rw [SkipsTo, hrecording] at h
  rw [Unaffected, h]

/-- How a machine outside every loop stands that has come past operations and entered no loop. -/
structure ComesPast (front : List Op) (m m' : Machine) : Prop where
  delivers : Delivers front m m'
  unaffected : Unaffected m m'
  steps : m'.steps = m.steps + topLevelLoops front
  within : ∃ depth, depthFrom 0 front = some depth ∧ m'.mode = .within depth

theorem ComesPast.goes (h : ComesPast front m m') : m'.mode ≠ .halted := by
  obtain ⟨depth, -, hmode⟩ := h.within
  rw [hmode]
  cases depth <;> simp [Mode.within]

section Passing

variable (hcell : m.tape.current = 0) (hinactive : m.recording = .empty)

include hcell hinactive

/-- One more operation makes no difference if some bracket is open before it or it opens one. -/
theorem ComesPast.step (h : ComesPast front m m') (hnext : front ++ [op] <+: m.ready)
    (hfinal : depthFrom 0 (front ++ [op]) = some final) (henclosed : Plain op → ¬Balanced front) :
    ComesPast (front ++ [op]) m m'.step.machine := by
  obtain ⟨rest, hrest⟩ := h.delivers.isPrefix_ready hnext
  obtain ⟨depth, hdepth, hmode⟩ := h.within
  have hunrecorded : m.recording.ops = #[] := congrArg Recording.ops hinactive
  have hbefore := h.delivers.unrecorded hunrecorded
  rw [depthFrom_concat hdepth] at hfinal
  -- Outside all brackets the machine executes what comes next, inside them it passes over it.
  cases depth with
  | zero =>
    obtain rfl : op = .loopOpen := by
      cases op using bracketCases with
      | opening => rfl
      | closing => simp [depthFrom] at hfinal
      | plain op hp => exact absurd hdepth (henclosed hp)
    have htape : m'.tape = m.tape := by rw [h.unaffected]
    obtain ⟨hdelivers, hskips, hlast⟩ :=
      step_of_open hmode (by rw [htape]; exact hcell) h.delivers.cursor_le hrest.symm
    have hrecording := hdelivers.unrecorded (by rw [hbefore]; exact hunrecorded)
    refine ⟨h.delivers.trans hdelivers, h.unaffected.trans (hskips.unaffected hrecording), ?_, 1,
      depthFrom_concat hdepth _, hlast⟩
    rw [topLevelLoops_open hdepth, ← Nat.add_assoc, ← h.steps, hskips]
  | succ depth =>
    obtain ⟨hdelivers, hskips, hlast⟩ := skip_ready hmode h.delivers.cursor_le hrest.symm
    have hrecording := hdelivers.unrecorded (by rw [hbefore]; exact hunrecorded)
    refine ⟨h.delivers.trans hdelivers, h.unaffected.trans (hskips.unaffected hrecording), ?_,
      depthAfter (depth + 1) op, ?_, hlast⟩
    · rw [topLevelLoops_inside hdepth, ← h.steps, hskips]
    · rw [depthFrom_concat hdepth]
      cases op using bracketCases with
      | opening | closing => rfl
      | plain op hp =>
        rw [depthAfter_plain hp, depthFrom_plain hp]
        rfl

/-- All operations are come past up to a bracket that closes nothing. -/
theorem comesPast_after (hmode : m.mode = .running) (henclosed : EffectsEnclosed m.ready)
    (front : List Op) : front <+: m.ready → ∀ final, depthFrom 0 front = some final →
      ComesPast front m (m.after front.length) := by
  induction front using List.reverseRecOn with
  | nil =>
    intro _ _ _
    refine ⟨delivers_nil ?_, rfl, rfl, 0, rfl, hmode⟩
    rw [hinactive]
    exact Nat.le_refl 0
  | append_singleton front op ih =>
    intro hprefix final hfinal
    obtain ⟨depth, hdepth, -⟩ := depthFrom_of_append hfinal
    have hearlier := ih ((List.prefix_append front [op]).trans hprefix) depth hdepth
    rw [List.length_append, List.length_singleton, after_succ_eq_step]
    exact hearlier.step hcell hinactive hprefix hfinal (henclosed.not_balanced hprefix)

end Passing

/-- The machine stops in its last call without having done anything. -/
structure EndsIdly (fault : Option Fault) (m m' : Machine) : Prop where
  fault : m'.step.fault = fault
  halts : m'.step.machine.mode = .halted
  unaffected : Unaffected m m'.step.machine

/-- What is made of a fetch that records nothing counts at most. -/
theorem unaffected_fetch (h : m.fetch.2.recording = m.recording) (mode : Mode)
    (steps unclosedLoops : Nat) : Unaffected m
      { m.fetch.2 with mode := mode, steps := steps, unclosedLoops := unclosedLoops } := by
  have hsame := fetch_same m
  rw [h] at hsame
  unfold Unaffected
  generalize m.fetch.2 = fetched at hsame
  rw [hsame]

/-- A bracket that closes nothing is counted and ends the run. -/
theorem ComesPast.closes (h : ComesPast front m m') (hinactive : m.recording = .empty)
    (hloops : m.loops = .empty) (hbalanced : Balanced front)
    (hready : m'.ready = .loopClose :: rest) :
    EndsIdly (some (.unmatchedClose (m'.fetch.2.source.offset - 1))) m m' ∧
      m'.step.machine.steps = m.steps + topLevelLoops front + 1 := by
  obtain ⟨depth, hdepth, hmode⟩ := h.within
  obtain rfl : 0 = depth := Option.some.inj (hbalanced.symm.trans hdepth)
  obtain ⟨hfetched, hdelivers⟩ := fetch_ready h.delivers.cursor_le hready
  have hrecording : m'.fetch.2.recording = m'.recording := by
    apply hdelivers.unrecorded
    rw [h.delivers.unrecorded (congrArg Recording.ops hinactive), hinactive]
    rfl
  have hempty : m'.counted.loops.positions = #[] := by
    rw [loops_counted, h.unaffected, hloops]
    rfl
  have hexecuted := step_of_executed (executed?_eq_some_iff.mpr ⟨hmode, hfetched⟩)
  rw [execute, closeLoop_of_empty hempty] at hexecuted
  have hmachine : m'.step.machine = { m'.counted with mode := .halted } := by
    rw [hexecuted]
    rfl
  refine ⟨⟨?_, ?_, ?_⟩, ?_⟩
  · rw [hexecuted]
    rfl
  · rw [hmachine]
  · rw [hmachine]
    exact h.unaffected.trans
      (unaffected_fetch hrecording .halted m'.counted.steps m'.fetch.2.unclosedLoops)
  · rw [hmachine, ← h.steps]
    exact steps_counted m'

/-- A machine that has nothing before it ends, whether it skips a loop or not. -/
theorem step_of_nothing (hmode : m.mode = .within depth) (h : m.fetch.1 = .ok none) :
    m.step = .ended (m.loops.depth + depth) m.fetch.2 := by
  have hloops : m.fetch.2.loops = m.loops := by rw [fetch_same]
  have hfetch : m.fetch = (.ok none, m.fetch.2) := Prod.ext h rfl
  generalize m.fetch.2 = fetched at hloops hfetch ⊢
  rw [← hloops]
  cases depth with
  | zero =>
    rw [step_of_running hmode, executeNext, hfetch]
    rfl
  | succ depth => rw [step_of_skipping hmode, skipNext, hfetch]

/-- With the program the run ends. -/
theorem ComesPast.ends (h : ComesPast front m m') (hloops : m.loops = .empty)
    (hready : m'.ready = []) (hfailure : m.source.failure? = none) :
    EndsIdly none m m' ∧ m'.step.machine.steps = m.steps + topLevelLoops front ∧
      depthFrom 0 front = some m'.step.machine.unclosedLoops := by
  obtain ⟨depth, hdepth, hmode⟩ := h.within
  obtain ⟨hfetched, hrecording⟩ := fetch_spent hready
  rw [h.delivers.failure, hfailure] at hfetched
  have hnone : m'.loops.depth + depth = depth := by
    rw [h.unaffected, hloops, LoopStack.depth_empty, Nat.zero_add]
  have hstep := step_of_nothing hmode hfetched
  rw [hnone] at hstep
  refine ⟨⟨by rw [hstep]; rfl, by rw [hstep]; rfl, ?_⟩, ?_, ?_⟩
  · rw [hstep]
    exact h.unaffected.trans (unaffected_fetch hrecording .halted m'.fetch.2.steps depth)
  · rw [hstep, ← h.steps]
    change m'.fetch.2.steps = m'.steps
    rw [fetch_same]
  · rw [hstep]
    exact hdepth

/-- The run stops with a given call and with no earlier one. -/
def StopsWith (calls : Nat) (fault : Option Fault) (m : Machine) : Prop :=
  (∀ fuel < calls, m.run fuel = none) ∧ ∀ fuel, calls ≤ fuel →
    ∃ r, m.run fuel = some r ∧ r.machine = m.after calls ∧ r.fault = fault

theorem stopsWith_of_halts (hgoes : (m.after last).mode ≠ .halted)
    (hhalts : (m.after last).step.machine.mode = .halted) :
    StopsWith (last + 1) (m.after last).step.fault m := by
  constructor
  · intro fuel hlt
    apply run_eq_none_iff.mpr
    intro hhalted
    have hbehind := lt_of_halted hgoes hhalted
    omega
  · intro fuel hle
    rw [after_succ_eq_step]
    exact exists_run hgoes hhalts hle

/-- If the last call does nothing, the whole run does nothing. -/
theorem EndsIdly.unaffected_after {fault : Option Fault} {front : List Op}
    (h : EndsIdly fault m (m.after front.length))
    (hpast : ∀ part, part <+: front → ComesPast part m (m.after part.length)) :
    (∀ count, Unaffected m (m.after count)) ∧ StopsWith (front.length + 1) fault m := by
  have hgoes := (hpast front List.prefix_rfl).goes
  refine ⟨fun count => ?_, h.fault ▸ stopsWith_of_halts hgoes h.halts⟩
  by_cases hle : count ≤ front.length
  · have hcount := (hpast (front.take count) (List.take_prefix count front)).unaffected
    rwa [List.length_take_of_le hle] at hcount
  · have hhalted : (m.after (front.length + 1)).mode = .halted := by
      rw [after_succ_eq_step]
      exact h.halts
    rw [after_of_halted_le hhalted (by omega), after_succ_eq_step]
    exact h.unaffected

/-- The tape, the streams and the loops are as they were at the start. -/
structure Untouched (config : Config) (input : List ReadEvent) (sink : Sink) (m : Machine) :
    Prop where
  cells : m.tape.cells = Array.replicate config.tapeSize 0
  cursor : m.tape.cursor = config.tapeSize / 2
  input : m.input = input
  sink : m.sink = sink
  recording : m.recording = .empty
  loops : m.loops = .empty
  outputBytes : m.outputBytes = 0

theorem Unaffected.untouched (h : Unaffected (initial config program input sink) m) :
    Untouched config input sink m := by
  rw [h]
  exact ⟨rfl, rfl, rfl, rfl, rfl, rfl, rfl⟩

/-- How a text is executed that has no effect. -/
structure DoesNothing (config : Config) (text : List UInt8) (input : List ReadEvent) (sink : Sink)
    (m : Machine) : Prop where
  untouched : ∀ count, Untouched config input sink (m.after count)
  /-- The first bracket that closes nothing is executed, and fails. -/
  overclosed : ∀ offset, FirstUnmatched text offset →
    StopsWith ((operations (text.take offset)).length + 1) (some (.unmatchedClose offset)) m ∧
      (m.after ((operations (text.take offset)).length + 1)).steps
        = topLevelLoops (operations (text.take offset)) + 1
  /-- Without such a bracket the text is executed to its end. -/
  ended : (∀ offset, ¬FirstUnmatched text offset) →
    StopsWith ((operations text).length + 1) none m ∧
      ∃ depth, depthFrom 0 (operations text) = some depth ∧
        (m.after ((operations text).length + 1)).summary
          = ⟨topLevelLoops (operations text), 0, depth, text.length⟩

theorem ready_initial (config : Config) (text : List UInt8) (input : List ReadEvent)
    (sink : Sink) : (initial config (text.map .byte) input sink).source.failure? = none ∧
      (initial config (text.map .byte) input sink).ready = operations text := by
  have hfailure : (initial config (text.map .byte) input sink).source.failure? = none :=
    Source.unfailing_iff.mp (Or.inr (unfailing_bytes text))
  refine ⟨hfailure, ?_⟩
  rw [ready_of_unfailing hfailure, upcoming_initial, delivered_bytes]

/-- A machine that meets the end of its text has consumed all of it. -/
theorem offset_of_ended (hgoes : ((initial config program input sink).after last).mode ≠ .halted)
    (hends : EndsIdly none m ((initial config program input sink).after last)) :
    ((initial config program input sink).after (last + 1)).source.offset
      = (delivered program).length := by
  obtain ⟨_, _, _, hf⟩ := followsAfter_of_mode config program input sink last hgoes
  rw [after_succ_eq_step]
  rcases hf.step_cases with ⟨-, _, _, _, hadvances⟩ | ⟨-, hended⟩ | ⟨fault, hsome, -⟩
  · exact absurd hends.halts hadvances.follows.mode_ne_halted
  · exact hended.offset
  · rw [hends.fault] at hsome
    simp at hsome

section Initial

variable (config input sink) (h : EffectsEnclosed (operations text))

include h

/-- The machine comes past all parts of its text that close nothing but what they open. -/
theorem comesPast_initial (hfront : front <+: operations text)
    (hdepth : depthFrom 0 front = some depth) (part : List Op) (hpart : part <+: front) :
    ComesPast part (initial config (text.map .byte) input sink)
      ((initial config (text.map .byte) input sink).after part.length) := by
  obtain ⟨behind, rfl⟩ := hpart
  obtain ⟨between, hbetween, -⟩ := depthFrom_of_append hdepth
  have hcell := Tape.current_blank config.tapeSize config.boundary
  rw [← (ready_initial config text input sink).2] at h hfront
  exact comesPast_after hcell rfl rfl h part ((List.prefix_append part behind).trans hfront)
    between hbetween

theorem doesNothing_overclosed (hfirst : FirstUnmatched text offset) :
    DoesNothing config text input sink (initial config (text.map .byte) input sink) := by
  obtain ⟨hbalanced, rest, hsplit⟩ := hfirst.split
  have hpast := comesPast_initial config input sink h
    (hsplit ▸ List.prefix_append _ _) hbalanced
  have hfront := hpast _ List.prefix_rfl
  have hready := hfront.delivers.ready
  rw [(ready_initial config text input sink).2, hsplit, List.append_cancel_left_eq] at hready
  obtain ⟨hends, hsteps⟩ := hfront.closes rfl rfl hbalanced hready.symm
  have hover := overcloses_of_fault config (text.map .byte) input sink hends.fault
  have hfirst' := hover.firstUnmatched.2
  rw [delivered_bytes] at hfirst'
  rw [hfirst'.unique hfirst] at hends
  obtain ⟨hunaffected, hstops⟩ := hends.unaffected_after hpast
  refine ⟨fun count => (hunaffected count).untouched, fun other hother => ?_,
    fun hnever => absurd hfirst (hnever offset)⟩
  obtain rfl := hfirst.unique hother
  refine ⟨hstops, ?_⟩
  rw [after_succ_eq_step, hsteps]
  exact congrArg (· + 1) (Nat.zero_add _)

theorem doesNothing_ended (hnever : ∀ offset, ¬FirstUnmatched text offset) :
    DoesNothing config text input sink (initial config (text.map .byte) input sink) := by
  obtain ⟨depth, hdepth⟩ := exists_depth_of_matched hnever
  obtain ⟨hfailure, hready⟩ := ready_initial config text input sink
  have hpast := comesPast_initial config input sink h List.prefix_rfl hdepth
  have hall := hpast _ List.prefix_rfl
  have hnone := hall.delivers.ready
  rw [hready, List.self_eq_append_right] at hnone
  obtain ⟨hends, hsteps, hunclosed⟩ := hall.ends rfl hnone hfailure
  have hoffset := offset_of_ended hall.goes hends
  rw [delivered_bytes] at hoffset
  obtain ⟨hunaffected, hstops⟩ := hends.unaffected_after hpast
  have houtput := (hunaffected ((operations text).length + 1)).untouched.outputBytes
  refine ⟨fun count => (hunaffected count).untouched,
    fun offset hfirst => absurd hfirst (hnever offset), fun _ => ⟨hstops, _, hunclosed, ?_⟩⟩
  rw [summary, hoffset, houtput, after_succ_eq_step, hsteps]
  congr 1
  exact Nat.zero_add _

end Initial

/-- A program of which every effect stands inside brackets stops and has done nothing. -/
theorem doesNothing_of_enclosed (config : Config) (text : List UInt8) (input : List ReadEvent)
    (sink : Sink) (h : EffectsEnclosed (operations text)) :
    DoesNothing config text input sink (initial config (text.map .byte) input sink) := by
  by_cases hover : ∃ offset, FirstUnmatched text offset
  · obtain ⟨offset, hfirst⟩ := hover
    exact doesNothing_overclosed config input sink h hfirst
  · exact doesNothing_ended config input sink h (not_exists.mp hover)

/-- A read and a write are skipped with their loops, and nothing comes of the sum behind the bracket
at which the run fails. -/
theorem doesNothing_of_overclosed :
    EffectsEnclosed (operations [91, 43, 93, 35, 91, 91, 44, 93, 46, 93, 93, 43]) ∧
      DoesNothing { tapeSize := 3 } [91, 43, 93, 35, 91, 91, 44, 93, 46, 93, 93, 43] [.byte 7]
        .accepting (initial { tapeSize := 3 }
          ([91, 43, 93, 35, 91, 91, 44, 93, 46, 93, 93, 43].map .byte) [.byte 7] .accepting) :=
  ⟨by decide, doesNothing_of_enclosed { tapeSize := 3 } _ [.byte 7] .accepting (by decide)⟩

end Machine

end TapeMachine
