import TapeMachine.Proofs.Machine.Halting
import TapeMachine.Proofs.Machine.Step

/-!
# The loops of a machine along a run

Between two steps, as long as a machine goes on, its recording holds the operations delivered since
the outermost loop was entered, and its stack the positions of the recorded brackets that are still
open before the cursor. The one moment without an entered loop inside a recording is the one after a
jump back to its first bracket.
-/

namespace TapeMachine.Machine

open Brackets Listing

/-- The operations that the source of a machine has delivered. -/
def deliveredOps (program : List ReadEvent) (m : Machine) : List Op :=
  operations (delivered (program.take (program.length - m.source.events.length)))

/-- What the recording, the cursor and the loop stack are after a number of steps. -/
structure LoopsAfter (program : List ReadEvent) (start : Machine) (count : Nat) (m : Machine) :
    Prop where
  cursor_le : m.recording.cursor ≤ m.recording.ops.size
  /-- The recording starts with the bracket that entered the current outermost loop, and goes on
  with all that has been delivered since. -/
  recorded : m.recording.ops ≠ #[] → m.recording.ops[0]? = some .loopOpen ∧
    ∃ entry < count, (start.after entry).StartsRecording ∧
      (∀ later, entry < later → later ≤ count → (start.after later).recording.ops ≠ #[]) ∧
      m.deliveredOps program
        = (start.after entry).deliveredOps program ++ m.recording.ops.toList
  running : m.mode = .running →
    openPositions (m.recording.ops.toList.take m.recording.cursor) = m.loops.positions.toList
  skipping : ∀ depth, m.mode = .skipping depth → m.recording.ops ≠ #[] →
    ∃ skipped, skipped.length = depth ∧
      openPositions (m.recording.ops.toList.take m.recording.cursor)
        = m.loops.positions.toList ++ skipped
  outside : m.recording.ops = #[] → m.loops.positions = #[]
  inside : ∀ length, 0 < length → length < m.recording.ops.size →
    ∃ depth, depthFrom 0 (m.recording.ops.toList.take length) = some (depth + 1)
  /-- Inside a recording the stack is empty only after a jump back to the outermost bracket. -/
  back : m.recording.ops ≠ #[] → m.loops.positions = #[] →
    m.mode = .running ∧ m.recording.cursor = 0 ∧ m.tape.current ≠ 0 ∧
      ∃ last, count = last + 1 ∧ (start.after last).ClosesOutermost

variable {program read : List ReadEvent} {before : List Op} {depth : Nat} {m : Machine}

theorem Follows.deliveredOps_eq (h : Follows program read before depth m) :
    m.deliveredOps program = before ++ m.recording.ops.toList := by
  rw [← h.delivered_eq, deliveredOps]
  have hlength := congrArg List.length h.reads.split
  rw [List.length_append] at hlength
  rw [hlength, Nat.add_sub_cancel, h.reads.split, List.take_left]

theorem follows_initial (config : Config) (program input : List ReadEvent) (sink : Sink) :
    Follows program [] [] 0 (initial config program input sink) where
  mode := rfl
  cursor_le := Nat.le_refl 0
  depth_eq := rfl
  opened := List.nil_prefix
  outside _ := rfl
  inside hne := absurd rfl hne
  reads := Source.readsOn_ofEvents program
  delivered_eq := rfl

/-- Seen from the start of the recording, the stack holds the open brackets that are not skipped. -/
theorem Represents.opened_recorded (h : Represents before depth m) :
    m.recording.ops ≠ #[] → ∃ skipped, skipped.length = depth ∧
      openPositions (m.recording.ops.toList.take m.recording.cursor)
        = m.loops.positions.toList ++ skipped := by
  intro hactive
  have hbalanced := (h.inside hactive).1
  have hopened := h.opened
  rw [passed, openPositions_append hbalanced] at hopened
  obtain ⟨rest, hrest⟩ := hopened
  obtain ⟨below, skipped, hsplit, hbelow, -⟩ := List.map_eq_append_iff.mp hrest.symm
  have hinjective : Function.Injective (before.length + ·) := fun _ _ heq => Nat.add_left_cancel heq
  obtain rfl := List.map_injective_iff.mpr hinjective hbelow
  refine ⟨skipped, ?_, hsplit⟩
  have hdepth := h.depth_eq
  rw [passed, depthFrom_append_of_eq hbalanced] at hdepth
  have hlength := length_openPositions hdepth
  rw [hsplit, List.length_append, Array.length_toList, LoopStack.depth] at hlength
  omega

/-- A machine that still goes on after some steps, with the step that started its recording. -/
structure FollowsAfter (program : List ReadEvent) (start : Machine) (count : Nat)
    (read : List ReadEvent) (before : List Op) (depth : Nat) (m : Machine) : Prop
    extends Follows program read before depth m where
  entered : m.recording.ops ≠ #[] → ∃ entry < count, (start.after entry).StartsRecording ∧
    (∀ later, entry < later → later ≤ count → (start.after later).recording.ops ≠ #[]) ∧
    before = (start.after entry).deliveredOps program
  closed : m.recording.ops ≠ #[] → m.loops.positions = #[] →
    ∃ last, count = last + 1 ∧ (start.after last).ClosesOutermost

variable {start : Machine} {count : Nat}

/-- A step from a machine that goes on to one that goes on extends the run. -/
theorem FollowsAfter.succ (h : FollowsAfter program start count read before depth
    (start.after count)) {read' : List ReadEvent} {before' : List Op} {depth' : Nat}
    (ha : Advances program before (start.after count) read' before' depth'
      (start.after (count + 1))) :
    FollowsAfter program start (count + 1) read' before' depth' (start.after (count + 1)) := by
  refine ⟨ha.follows, fun hactive => ?_, fun hactive hnil => ⟨count, rfl, ha.back hactive hnil⟩⟩
  obtain ⟨rfl, hrecording | hstarts⟩ := ha.kept hactive
  · obtain ⟨entry, hlt, hentry, hbetween, hbefore⟩ := h.entered hrecording
    refine ⟨entry, Nat.lt_succ_of_lt hlt, hentry, fun later hafter hle => ?_, hbefore⟩
    rcases Nat.lt_or_eq_of_le hle with hlater | rfl
    · exact hbetween later hafter (Nat.le_of_lt_succ hlater)
    · exact hactive
  · refine ⟨count, Nat.lt_succ_self count, hstarts, fun later hafter hle => ?_, ?_⟩
    · obtain rfl : later = count + 1 := by omega
      exact hactive
    · rw [h.deliveredOps_eq, hstarts.inactive]
      exact (List.append_nil _).symm

/-- As long as a machine goes on it follows its program. -/
theorem followsAfter_of_mode (config : Config) (program input : List ReadEvent) (sink : Sink)
    (count : Nat) (h : ((initial config program input sink).after count).mode ≠ .halted) :
    ∃ read before depth, FollowsAfter program (initial config program input sink) count read before
      depth ((initial config program input sink).after count) := by
  induction count with
  | zero =>
    exact ⟨[], [], 0, follows_initial config program input sink, fun hne => absurd rfl hne,
      fun hne => absurd rfl hne⟩
  | succ count ih =>
    rw [after_succ_eq_step] at h
    obtain ⟨read, before, depth, hfollows⟩ := ih (mode_ne_halted_of_step h)
    obtain ⟨read', before', depth', ha⟩ := hfollows.toFollows.advances h
    rw [← after_succ_eq_step] at ha
    exact ⟨read', before', depth', hfollows.succ ha⟩

/-- The recording, its cursor and the loop stack represent the loops of the program in every state
of a run in which the machine goes on. -/
theorem loopsAfter_of_mode (config : Config) (program input : List ReadEvent) (sink : Sink)
    (count : Nat) (h : ((initial config program input sink).after count).mode ≠ .halted) :
    LoopsAfter program (initial config program input sink) count
      ((initial config program input sink).after count) := by
  obtain ⟨read, before, depth, hf⟩ := followsAfter_of_mode config program input sink count h
  refine ⟨hf.cursor_le, ?_, ?_, ?_, hf.outside, ?_, ?_⟩
  · intro hactive
    obtain ⟨entry, hlt, hentry, hbetween, hbefore⟩ := hf.entered hactive
    have hfirst := (hf.inside hactive).2.1.1
    rw [List.head?_eq_getElem?, Array.getElem?_toList] at hfirst
    refine ⟨hfirst, entry, hlt, hentry, hbetween, ?_⟩
    rw [← hbefore, hf.deliveredOps_eq]
  · intro hmode
    by_cases hactive : ((initial config program input sink).after count).recording.ops = #[]
    · simp [hactive, hf.outside hactive]
    · obtain ⟨skipped, hlength, hopened⟩ := hf.opened_recorded hactive
      have hdepth : depth = 0 := within_injective (hf.mode ▸ hmode)
      rw [hopened, List.eq_nil_of_length_eq_zero (hlength.trans hdepth), List.append_nil]
  · intro skippedDepth hmode hactive
    have hdepth : depth = skippedDepth := (within_eq_skipping (hf.mode ▸ hmode)).1
    rw [← hdepth]
    exact hf.opened_recorded hactive
  · intro length hpos hlt
    have hactive : ((initial config program input sink).after count).recording.ops ≠ #[] :=
      Array.size_pos_iff.mp (by omega)
    exact (hf.inside hactive).2.1.2 length hpos (by simpa using hlt)
  · intro hactive hnil
    obtain ⟨hdepth, hcursor, hcell⟩ := (hf.inside hactive).2.2 hnil
    refine ⟨?_, hcursor, hcell, hf.closed hactive hnil⟩
    rw [hf.mode, hdepth]
    rfl

/-- A loop that is skipped inside the recording of another. -/
theorem loopsAfter_skipping :
    ((initial { tapeSize := 3 } ([43, 91, 62, 91].map .byte) [] .accepting).after 4).mode
        ≠ .halted ∧
      LoopsAfter ([43, 91, 62, 91].map .byte)
        (initial { tapeSize := 3 } ([43, 91, 62, 91].map .byte) [] .accepting) 4
        ((initial { tapeSize := 3 } ([43, 91, 62, 91].map .byte) [] .accepting).after 4) :=
  ⟨by decide, loopsAfter_of_mode _ _ _ _ 4 (by decide)⟩

end TapeMachine.Machine
