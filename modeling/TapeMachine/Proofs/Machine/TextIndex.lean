import TapeMachine.Proofs.Brackets.TopLevel
import TapeMachine.Proofs.Machine.Representation
import TapeMachine.Proofs.Machine.StepReports
import TapeMachine.Proofs.Machine.Unfailing

/-!
# Where in its text a machine stands

Every step passes one operation of the text, but for a closing bracket that is executed on a cell
that is not zero: it leads back to its opening bracket. The index counted in this way is that of the
operation fetched next, wherever it is fetched from. Inside a recording it is the position in the
recording behind the opening bracket of the top-level loop.
-/

namespace TapeMachine.Machine

open Brackets Listing

instance (m : Machine) : Decidable m.JumpsBack :=
  decidable_of_iff (m.mode = .running ∧ m.fetch.1 = .ok (some .loopClose) ∧ m.tape.current ≠ 0)
    ⟨fun h => ⟨h.1, h.2.1, h.2.2⟩, fun h => ⟨h.mode, h.closes, h.cell⟩⟩

/-- The index in the operations of a text of the one that comes next after a number of steps. -/
def textIndex (ops : List Op) (m : Machine) : Nat → Nat
  | 0 => 0
  | count + 1 =>
    if (m.after count).JumpsBack then
      (openPositions (ops.take (textIndex ops m count))).getLastD 0
    else textIndex ops m count + 1

variable {program read : List ReadEvent} {before : List Op} {op : Op} {depth count : Nat}
  {start m : Machine}

/-- A machine that goes on has passed the operations before its index. -/
structure StandsAt (program : List ReadEvent) (start : Machine) (count : Nat)
    (read : List ReadEvent) (before : List Op) (depth : Nat) (m : Machine) : Prop
    extends FollowsAfter program start count read before depth m where
  passed_eq : m.passed before
    = (operations (delivered program)).take (textIndex (operations (delivered program)) start count)
  length_passed : (m.passed before).length
    = textIndex (operations (delivered program)) start count

theorem exists_fetched_of_goes (h : m.step.machine.mode ≠ .halted) :
    ∃ op, m.fetch.1 = .ok (some op) := by
  unfold step executeNext skipNext at h
  cases hmode : m.mode with
  | halted => simp [hmode, Step.quiet] at h
  | running | skipping depth =>
    rcases hfetch : m.fetch with ⟨fault | _ | op, m'⟩
    · simp [hmode, hfetch, Step.failed] at h
    · simp [hmode, hfetch, Step.ended] at h
    · exact ⟨op, rfl⟩

theorem StandsAt.succ (h : StandsAt program start count read before depth (start.after count))
    {read' : List ReadEvent} {before' : List Op} {depth' : Nat}
    (ha : Advances program before (start.after count) read' before' depth'
      (start.after (count + 1))) :
    StandsAt program start (count + 1) read' before' depth' (start.after (count + 1)) := by
  have hprefix := isPrefix_passed ha.follows.reads ha.follows.delivered_eq
  have hlength : ((start.after (count + 1)).passed before').length
      = textIndex (operations (delivered program)) start (count + 1) := by
    rw [textIndex]
    split
    · next hjump =>
      obtain ⟨below, opening, hopen, hpassed⟩ := ha.jump hjump
      have hlt := (openPositions_split hopen).1
      rw [hpassed, ← h.passed_eq, hopen, List.getLastD_concat, List.length_take]
      omega
    · next hjump =>
      have hgoes : (start.after count).step.machine.mode ≠ .halted := by
        rw [← after_succ_eq_step]
        exact ha.follows.mode_ne_halted
      obtain ⟨op, hfetch⟩ := exists_fetched_of_goes hgoes
      rw [ha.on op hfetch hjump, List.length_append, h.length_passed]
      rfl
  refine ⟨h.toFollowsAfter.succ ha, ?_, hlength⟩
  rw [← hlength]
  exact List.prefix_iff_eq_take.mp hprefix

/-- As long as a machine goes on it stands at its index of the text. -/
theorem standsAt_of_mode (config : Config) (program input : List ReadEvent) (sink : Sink)
    (count : Nat) (h : ((initial config program input sink).after count).mode ≠ .halted) :
    ∃ read before depth, StandsAt program (initial config program input sink) count read before
      depth ((initial config program input sink).after count) := by
  induction count with
  | zero =>
    refine ⟨[], [], 0, ⟨follows_initial config program input sink, fun hne => absurd rfl hne,
      fun hne => absurd rfl hne⟩, ?_, rfl⟩
    rfl
  | succ count ih =>
    rw [after_succ_eq_step] at h
    obtain ⟨read, before, depth, hstands⟩ := ih (mode_ne_halted_of_step h)
    obtain ⟨read', before', depth', ha⟩ := hstands.toFollows.advances h
    rw [← after_succ_eq_step] at ha
    exact ⟨read', before', depth', hstands.succ ha⟩

/-- The first pass through a loop ends at its opening bracket. -/
example : textIndex (operations [43, 43, 91, 45, 93])
    (initial { tapeSize := 3 } ([43, 43, 91, 45, 93].map .byte) [] .accepting) 5 = 2 := by decide

/-- The machine executes an operation that stands at an index of its text. The operations before the
recording are given. -/
structure ExecutesAt (program : List ReadEvent) (index : Nat) (op : Op) (before : List Op)
    (m : Machine) : Prop where
  fetched : Fetched before ((operations (delivered program)).take index) op 0 m.fetch.2
  getElem?_eq : (operations (delivered program))[index]? = some op
  reads : ∃ read, m.fetch.2.source.ReadsOn program read ∧
    operations (delivered read) = before ++ m.fetch.2.recording.ops.toList

theorem StandsAt.executesAt (h : StandsAt program start count read before depth m)
    (hexecuted : m.executed? = some op) : ∃ before',
      ExecutesAt program (textIndex (operations (delivered program)) start count) op before' m := by
  obtain ⟨hmode, hop⟩ := executed?_eq_some_iff.mp hexecuted
  obtain rfl : depth = 0 := within_injective (h.mode.symm.trans hmode)
  rcases h.fetch_cases with ⟨fetched, m', read', before', hfetch, hf⟩ | ⟨source, hfetch, -⟩ |
    ⟨error, m', hfetch, -⟩
  · obtain rfl : fetched = op := by simpa [hfetch] using hop
    have hmachine : m.fetch.2 = m' := by rw [hfetch]
    refine ⟨before', ?_, ?_, read', ?_, ?_⟩
    · rw [hmachine, ← h.passed_eq]
      exact hf.fetched
    · obtain ⟨rest, hrest⟩ := hf.isPrefix_front
      rw [← h.length_passed, ← hrest]
      simp
    · rw [hmachine]
      exact hf.reads
    · rw [hmachine]
      exact hf.delivered_eq
  · simp [hfetch] at hop
  · simp [hfetch] at hop

section ExecutesAt

variable {index place : Nat}

theorem ExecutesAt.lt_length (h : ExecutesAt program index op before m) :
    index < (operations (delivered program)).length :=
  (List.getElem?_eq_some_iff.mp h.getElem?_eq).1

theorem ExecutesAt.take_succ (h : ExecutesAt program index op before m) :
    (operations (delivered program)).take (index + 1)
      = (operations (delivered program)).take index ++ [op] := by
  obtain ⟨hlt, hget⟩ := List.getElem?_eq_some_iff.mp h.getElem?_eq
  rw [List.take_succ_eq_append_getElem hlt, hget]

/-- Where the operation stands behind the bracket that started the recording. -/
theorem ExecutesAt.length_before (h : ExecutesAt program index op before m) :
    before.length + m.fetch.2.recording.cursor = index + 1 := by
  rw [h.fetched.length_front, List.length_take_of_le (Nat.le_of_lt h.lt_length)]

/-- The text up to the operation, read off the recording. -/
theorem ExecutesAt.take_eq (h : ExecutesAt program index op before m) (hle : place ≤ index + 1) :
    (operations (delivered program)).take place
      = (before ++ m.fetch.2.recording.ops.toList.take m.fetch.2.recording.cursor).take place := by
  have hpassed := h.fetched.passed_eq
  rw [← h.take_succ, passed] at hpassed
  rw [hpassed, List.take_take, Nat.min_eq_left hle]

/-- Outside every loop that is entered nothing is open before the operation. -/
theorem ExecutesAt.balanced (h : ExecutesAt program index op before m)
    (hinactive : m.fetch.2.recording.ops = #[]) :
    Balanced ((operations (delivered program)).take index) := by
  have hdepth := h.fetched.depth_eq
  rwa [LoopStack.depth, h.fetched.outside hinactive] at hdepth

/-- What is recorded is the text from the opening bracket of a top-level loop on. -/
theorem ExecutesAt.topLevelLoop (h : ExecutesAt program index op before m)
    (hactive : m.fetch.2.recording.ops ≠ #[]) :
    TopLevelLoop (operations (delivered program)) before.length index := by
  obtain ⟨hbalanced, henclosed, hcursor, -⟩ := h.fetched.inside hactive
  have hlength := h.length_before
  have hsize := h.fetched.cursor_le
  refine ⟨?_, ?_, by omega, fun place hlt hle hplace => ?_⟩
  · have hfirst := henclosed.1
    rw [List.head?_eq_getElem?] at hfirst
    have hwithin : before.length < index + 1 := by omega
    rw [← List.getElem?_take_of_lt hwithin, h.take_eq (Nat.le_refl _),
      List.getElem?_take_of_lt hwithin, List.getElem?_append_right (Nat.le_refl _), Nat.sub_self,
      List.getElem?_take_of_lt hcursor, hfirst]
  · rw [h.take_eq (by omega), List.take_left]
    exact hbalanced
  · obtain ⟨length, rfl⟩ := Nat.exists_eq_add_of_le (Nat.le_of_lt hlt)
    obtain ⟨between, hdepth⟩ := henclosed.2 length (by omega) (by rw [Array.length_toList]; omega)
    rw [Brackets.Balanced, h.take_eq (by omega), List.take_length_add_append, List.take_take,
      Nat.min_eq_left (by omega), depthFrom_append_of_eq hbalanced, hdepth] at hplace
    simp at hplace

end ExecutesAt

end TapeMachine.Machine
