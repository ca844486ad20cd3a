import TapeMachine.Proofs.Machine.Fetch

/-!
# Handling the operation that was fetched

Each way of handling an operation leads from `Fetched` back to `Represents`: passing over it,
executing an operation that is no bracket, entering a loop, going back to its start, leaving an
inner loop and leaving the outermost one. The program delivered so far is the same before and after.
-/

namespace TapeMachine.Machine

open Brackets Listing

variable {program read : List ReadEvent} {before front : List Op} {op : Op} {depth : Nat}
  {m m' : Machine}

theorem isPrefix_dropLast {α : Type} {first second : List α} (h : first <+: second)
    (hlt : first.length < second.length) : first <+: second.dropLast := by
  obtain ⟨rest, rfl⟩ := h
  have hrest : rest ≠ [] := by
    rintro rfl
    simp at hlt
  rw [List.dropLast_append_of_ne_nil hrest]
  exact List.prefix_append first _

theorem Fetched.length_front (h : Fetched before front op depth m) :
    before.length + m.recording.cursor = front.length + 1 := by
  have hlength := congrArg List.length h.passed_eq
  have hle := h.cursor_le
  simp only [passed, List.length_append, List.length_take, Array.length_toList,
    List.length_singleton] at hlength
  omega

/-- Without skipped brackets the stack holds all brackets left open. -/
theorem Fetched.opened_eq (h : Fetched before front op 0 m) :
    m.loops.positions.toList.map (before.length + ·) = openPositions front := by
  refine h.opened.eq_of_length ?_
  rw [length_openPositions h.depth_eq]
  simp [LoopStack.depth]

/-- The loops stay as they are, and the depth is that behind the operation. -/
theorem Fetched.represents (h : Fetched before front op depth m) {after : Nat}
    (hmode : m'.mode = .within after) (hrecording : m'.recording = m.recording)
    (hloops : m'.loops = m.loops)
    (hdepth : depthFrom 0 (front ++ [op]) = some (m.loops.depth + after))
    (hopened : m.loops.positions.toList.map (before.length + ·) <+: openPositions (front ++ [op]))
    (hinside : m.recording.ops ≠ #[] → m.loops.positions ≠ #[]) :
    Represents before after m' := by
  have hpassed : m'.passed before = front ++ [op] := by
    rw [← h.passed_eq, passed, passed, hrecording]
  refine ⟨hmode, ?_, ?_, ?_, ?_, ?_⟩
  · rw [hrecording]
    exact h.cursor_le
  · rw [hpassed, hloops]
    exact hdepth
  · rw [hpassed, hloops]
    exact hopened
  · rw [hrecording, hloops]
    exact h.outside
  · rw [hrecording, hloops]
    intro hactive
    obtain ⟨hbalanced, henclosed, -, -⟩ := h.inside hactive
    exact ⟨hbalanced, henclosed, fun hnil => absurd hnil (hinside hactive)⟩

theorem Fetched.represents_plain (h : Fetched before front op depth m) (hp : Plain op)
    (hmode : m'.mode = m.mode) (hrecording : m'.recording = m.recording)
    (hloops : m'.loops = m.loops) : Represents before depth m' := by
  refine h.represents (hmode.trans h.mode) hrecording hloops ?_ ?_ ?_
  · rw [depthFrom_concat h.depth_eq, depthFrom_plain hp]
    rfl
  · rw [openPositions_concat_plain hp]
    exact h.opened
  · intro hactive hnil
    obtain ⟨-, -, hopen, -⟩ := (h.inside hactive).2.2.2 hnil
    exact hp.1 hopen

/-- A bracket is skipped over, or is the first of those skipped. -/
theorem Fetched.represents_skip_open (h : Fetched before front .loopOpen depth m)
    (hinside : m.recording.ops ≠ #[] → m.loops.positions ≠ #[]) :
    Represents before (depth + 1) { m with mode := .within (depth + 1) } := by
  refine h.represents rfl rfl rfl ?_ ?_ hinside
  · rw [depthFrom_concat h.depth_eq]
    rfl
  · rw [openPositions_concat_open]
    exact h.opened.trans (List.prefix_append _ _)

/-- While brackets are skipped some loop has been entered, if anything is recorded. -/
theorem Fetched.entered_of_skipping (h : Fetched before front op (depth + 1) m)
    (hactive : m.recording.ops ≠ #[]) : m.loops.positions ≠ #[] := by
  intro hnil
  have hdepth := ((h.inside hactive).2.2.2 hnil).1
  omega

theorem depthAfter_plain (hp : Plain op) (depth : Nat) : depthAfter depth op = depth := by
  cases op <;> first | exact absurd rfl hp.1 | exact absurd rfl hp.2 | rfl

theorem Fetched.represents_skip (h : Fetched before front op (depth + 1) m) :
    Represents before (depthAfter (depth + 1) op)
      { m with mode := .within (depthAfter (depth + 1) op) } := by
  cases op using bracketCases with
  | opening => exact h.represents_skip_open h.entered_of_skipping
  | closing =>
    refine h.represents rfl rfl rfl ?_ ?_ h.entered_of_skipping
    · rw [depthFrom_concat h.depth_eq, ← Nat.add_assoc]
      rfl
    · rw [openPositions_concat_close]
      refine isPrefix_dropLast h.opened ?_
      rw [length_openPositions h.depth_eq]
      simp only [LoopStack.depth, List.length_map, Array.length_toList]
      omega
  | plain op hp =>
    rw [depthAfter_plain hp]
    exact h.represents_plain hp h.mode.symm rfl rfl

/-- A loop is entered inside a recording. -/
theorem Fetched.represents_enter (h : Fetched before front .loopOpen 0 m)
    (hactive : m.recording.ops ≠ #[]) :
    Represents before 0 { m with loops := m.loops.push m.recording.lastPosition } := by
  obtain ⟨hbalanced, henclosed, hcursor, -⟩ := h.inside hactive
  refine ⟨h.mode, h.cursor_le, ?_, ?_, fun hnil => absurd hnil hactive, ?_⟩
  · change depthFrom 0 (m.passed before) = _
    rw [h.passed_eq, depthFrom_concat h.depth_eq, LoopStack.depth_push]
    rfl
  · change _ <+: openPositions (m.passed before)
    have hfront := h.length_front
    have hposition : before.length + m.recording.lastPosition = front.length := by
      simp only [Recording.lastPosition]
      omega
    rw [h.passed_eq, openPositions_concat_open, ← h.opened_eq]
    simp [LoopStack.push, hposition]
  · intro _
    refine ⟨hbalanced, henclosed, fun hnil => ?_⟩
    simp [LoopStack.push] at hnil

/-- A loop is entered outside every other, which starts a recording. -/
theorem Fetched.represents_start (h : Fetched before front .loopOpen 0 m)
    (hinactive : m.recording.ops = #[]) :
    Represents front 0
      { m with recording := .start .loopOpen, loops := m.loops.push 0 } := by
  have hloops := h.outside hinactive
  have hbalanced : Balanced front := by
    have hdepth := h.depth_eq
    rwa [LoopStack.depth, hloops] at hdepth
  refine ⟨h.mode, Nat.le_refl 1, ?_, ?_, fun hnil => ?_, fun _ => ⟨hbalanced, ?_, fun hnil => ?_⟩⟩
  · change depthFrom 0 (front ++ [.loopOpen]) = _
    rw [depthFrom_concat hbalanced, LoopStack.depth_push, LoopStack.depth, hloops]
    rfl
  · change _ <+: openPositions (front ++ [.loopOpen])
    rw [openPositions_concat_open, openPositions_eq_nil hbalanced]
    simp [LoopStack.push, hloops]
  · simp [Recording.start] at hnil
  · exact enclosed_singleton
  · simp [LoopStack.push] at hnil

section Closing

variable {below : List Nat} {position : Nat}

theorem Fetched.recording_active (h : Fetched before front op depth m)
    (hloops : m.loops.positions.toList = below ++ [position]) : m.recording.ops ≠ #[] := by
  intro hnil
  simp [h.outside hnil] at hloops

theorem Fetched.opened_split (h : Fetched before front op 0 m)
    (hloops : m.loops.positions.toList = below ++ [position]) :
    openPositions front
      = below.map (before.length + ·) ++ [before.length + position] := by
  rw [← h.opened_eq, hloops, List.map_append, List.map_singleton]

theorem Fetched.front_eq (h : Fetched before front op depth m)
    (hactive : m.recording.ops ≠ #[]) :
    front = before ++ m.recording.ops.toList.take (m.recording.cursor - 1) := by
  have hcursor := (h.inside hactive).2.2.1
  have hle := h.cursor_le
  have hne : m.recording.ops.toList.take m.recording.cursor ≠ [] := by
    intro hnil
    have hlength := congrArg List.length hnil
    simp only [List.length_take, Array.length_toList, List.length_nil] at hlength
    omega
  have hdrop := congrArg List.dropLast h.passed_eq
  rw [passed, List.dropLast_append_of_ne_nil hne, List.dropLast_concat, List.dropLast_eq_take,
    List.length_take, Array.length_toList, Nat.min_eq_left hle, List.take_take,
    Nat.min_eq_left (Nat.sub_le _ _)] at hdrop
  exact hdrop.symm

/-- The innermost loop starts with a recorded bracket before the operation, and up to it the other
loops are open. -/
theorem Fetched.opening (h : Fetched before front op 0 m)
    (hloops : m.loops.positions.toList = below ++ [position]) :
    position + 1 < m.recording.cursor ∧ m.recording.ops[position]? = some .loopOpen ∧
      front.take (before.length + position)
        = before ++ m.recording.ops.toList.take position ∧
      openPositions (before ++ m.recording.ops.toList.take position)
        = below.map (before.length + ·) := by
  have hactive := h.recording_active hloops
  have hlength := h.length_front
  obtain ⟨hlt, hget, htake⟩ := openPositions_split (h.opened_split hloops)
  have hfront : front.take (before.length + position)
      = before ++ m.recording.ops.toList.take position := by
    rw [h.front_eq hactive, List.take_length_add_append, List.take_take,
      Nat.min_eq_left (by omega)]
  rw [hfront] at htake
  refine ⟨by omega, ?_, hfront, htake⟩
  rw [h.front_eq hactive, List.getElem?_append_right (Nat.le_add_right _ _),
    Nat.add_sub_cancel_left, List.getElem?_take_of_lt (by omega), Array.getElem?_toList] at hget
  exact hget

/-- A jump back to the start of the innermost loop. -/
theorem Fetched.represents_rewind (h : Fetched before front .loopClose 0 m)
    (hloops : m.loops.positions.toList = below ++ [position]) (hcell : m.tape.current ≠ 0) :
    Represents before 0
      { m with loops := ⟨below.toArray⟩, recording := m.recording.rewind position } := by
  have hactive := h.recording_active hloops
  obtain ⟨hbalanced, henclosed, -, -⟩ := h.inside hactive
  obtain ⟨hcursor, hget, htake, hopen⟩ := h.opening hloops
  have hle := h.cursor_le
  have hdepth : depthFrom 0 (before ++ m.recording.ops.toList.take position)
      = some below.length := by
    have hfront := h.depth_eq
    rw [← List.take_append_drop (before.length + position) front, htake] at hfront
    obtain ⟨between, hbetween, -⟩ := depthFrom_of_append hfront
    have hlength := length_openPositions hbetween
    rw [hopen, List.length_map] at hlength
    rw [hbetween, hlength]
  refine ⟨h.mode, ?_, hdepth, ?_, fun hnil => absurd hnil hactive,
    fun _ => ⟨hbalanced, henclosed, fun hnil => ⟨rfl, ?_, hcell⟩⟩⟩
  · change position ≤ m.recording.ops.size
    omega
  · change below.map _ <+: openPositions (before ++ m.recording.ops.toList.take position)
    exact hopen ▸ List.prefix_rfl
  · -- Nothing is open before the position, and the recording stays inside its first bracket.
    change position = 0
    have hbelow : below = [] := by simpa using hnil
    rw [depthFrom_append_of_eq hbalanced, hbelow] at hdepth
    by_contra hposition
    have hsize := henclosed.length_le (Nat.pos_of_ne_zero hposition) hdepth
    rw [Array.length_toList] at hsize
    omega

theorem Fetched.depth_close (h : Fetched before front .loopClose 0 m)
    (hloops : m.loops.positions.toList = below ++ [position]) :
    depthFrom 0 (m.passed before) = some below.length := by
  have hdepth : m.loops.depth = below.length + 1 := by
    have hlength := congrArg List.length hloops
    simpa [LoopStack.depth] using hlength
  rw [h.passed_eq, depthFrom_concat h.depth_eq, hdepth]
  rfl

/-- An inner loop is left. -/
theorem Fetched.represents_leave (h : Fetched before front .loopClose 0 m)
    (hloops : m.loops.positions.toList = below ++ [position]) (hbelow : below ≠ []) :
    Represents before 0 { m with loops := ⟨below.toArray⟩ } := by
  have hactive := h.recording_active hloops
  obtain ⟨hbalanced, henclosed, -, -⟩ := h.inside hactive
  refine ⟨h.mode, h.cursor_le, h.depth_close hloops, ?_, fun hnil => absurd hnil hactive,
    fun _ => ⟨hbalanced, henclosed, fun hnil => ?_⟩⟩
  · have hopened : openPositions (m.passed before) = below.map (before.length + ·) := by
      rw [h.passed_eq, openPositions_concat_close, h.opened_split hloops, List.dropLast_concat]
    change below.map _ <+: openPositions (m.passed before)
    exact hopened ▸ List.prefix_rfl
  · exact absurd (by simpa using hnil) hbelow

/-- The outermost loop is left, which ends the recording. All of it has been passed. -/
theorem Fetched.represents_finish (h : Fetched before front .loopClose 0 m)
    (hloops : m.loops.positions.toList = [position]) :
    Represents (before ++ m.recording.ops.toList) 0
        { m with loops := ⟨#[]⟩, recording := .empty } ∧
      m.recording.cursor = m.recording.ops.size := by
  replace hloops : m.loops.positions.toList = [] ++ [position] := hloops
  have hactive := h.recording_active hloops
  obtain ⟨hbalanced, henclosed, hcursor, -⟩ := h.inside hactive
  have hdepth := h.depth_close hloops
  have hend : m.recording.cursor = m.recording.ops.size := by
    rw [passed, depthFrom_append_of_eq hbalanced] at hdepth
    have hsize := henclosed.length_le hcursor hdepth
    have hle := h.cursor_le
    rw [Array.length_toList] at hsize
    omega
  rw [passed_of_size_le before (Nat.le_of_eq hend.symm)] at hdepth
  refine ⟨⟨h.mode, Nat.le_refl 0, ?_, ?_, fun _ => rfl, fun hne => absurd rfl hne⟩, hend⟩
  · rw [passed_of_empty _ rfl]
    exact hdepth
  · exact List.nil_prefix

end Closing

end TapeMachine.Machine
