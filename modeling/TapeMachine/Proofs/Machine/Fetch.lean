import TapeMachine.Machine.Upcoming
import TapeMachine.Proofs.Brackets.OpenPositions
import TapeMachine.Proofs.Program.Reading

/-!
# The operation that comes next

`Represents` ties the recording, the loop stack and the mode of a machine that has not halted to the
brackets of its program: the stack and the skipped brackets together are the brackets left open by
the operations passed so far. The stack is empty inside a recording only right after a jump back to
the first bracket, and then the current cell is not zero. `Fetched` says the same of a machine that
has fetched an operation and not yet handled it, and `fetch_cases` leads from one to the other.
-/

namespace TapeMachine

namespace LoopStack

theorem pop_eq_ok {s : LoopStack} {below : List Nat} {position : Nat}
    (h : s.positions.toList = below ++ [position]) :
    s.pop = (.ok position, ⟨below.toArray⟩) := by
  have hpositions : s.positions = below.toArray.push position := by
    apply Array.ext'
    simpa using h
  simp [pop, peek, hpositions]

theorem pop_eq_error {s : LoopStack} (h : s.positions = #[]) : s.pop = (.error {}, s) := by
  obtain ⟨positions⟩ := s
  cases h
  rfl

end LoopStack

namespace Recording

/-- The recording after the source was asked for an operation. -/
def noting (r : Recording) : Except Fault (Option Op) → Recording
  | .ok (some op) => if r.isActive then ⟨r.ops.push op, r.ops.size + 1⟩ else r
  | _ => r

end Recording

namespace Machine

open Brackets Listing

/-- The operations that a machine has passed, as they stand in the text. Those before its recording
are given. -/
def passed (before : List Op) (m : Machine) : List Op :=
  before ++ m.recording.ops.toList.take m.recording.cursor

/-- A machine that goes on, between two steps. The program up to its recording is given, and the
number of skipped brackets that are still to be closed. -/
structure Represents (before : List Op) (depth : Nat) (m : Machine) : Prop where
  mode : m.mode = .within depth
  cursor_le : m.recording.cursor ≤ m.recording.ops.size
  depth_eq : depthFrom 0 (m.passed before) = some (m.loops.depth + depth)
  opened : m.loops.positions.toList.map (before.length + ·) <+: openPositions (m.passed before)
  outside : m.recording.ops = #[] → m.loops.positions = #[]
  inside : m.recording.ops ≠ #[] → Balanced before ∧ Enclosed m.recording.ops.toList ∧
    (m.loops.positions = #[] → depth = 0 ∧ m.recording.cursor = 0 ∧ m.tape.current ≠ 0)

/-- A machine that has fetched an operation behind those passed before and has not handled it. -/
structure Fetched (before front : List Op) (op : Op) (depth : Nat) (m : Machine) : Prop where
  mode : m.mode = .within depth
  cursor_le : m.recording.cursor ≤ m.recording.ops.size
  passed_eq : m.passed before = front ++ [op]
  depth_eq : depthFrom 0 front = some (m.loops.depth + depth)
  opened : m.loops.positions.toList.map (before.length + ·) <+: openPositions front
  outside : m.recording.ops = #[] → m.loops.positions = #[]
  inside : m.recording.ops ≠ #[] → Balanced before ∧ Enclosed m.recording.ops.toList ∧
    0 < m.recording.cursor ∧ (m.loops.positions = #[] →
      depth = 0 ∧ m.recording.cursor = 1 ∧ op = .loopOpen ∧ m.tape.current ≠ 0)

theorem fetch_of_lt {m : Machine} (h : m.recording.cursor < m.recording.ops.size) :
    m.fetch = (.ok (some m.recording.ops[m.recording.cursor]),
      { m with recording := { m.recording with cursor := m.recording.cursor + 1 } }) := by
  have hactive : m.recording.isActive = true := by
    simp only [Recording.isActive, Bool.not_eq_true', Array.isEmpty_eq_false_iff]
    rintro hnil
    simp [hnil] at h
  rw [fetch, if_pos hactive, Recording.fetch_of_lt m.source h]

theorem fetch_of_size_le {m : Machine} (h : m.recording.ops.size ≤ m.recording.cursor) :
    m.fetch = (m.source.next.1,
      { m with recording := m.recording.noting m.source.next.1, source := m.source.next.2 }) := by
  unfold fetch
  by_cases hactive : m.recording.isActive = true
  · rw [if_pos hactive, Recording.fetch, Array.getElem?_eq_none h]
    rcases hnext : m.source.next with ⟨_ | _ | op, source⟩
    · rfl
    · rfl
    · simp [Recording.noting, hactive]
  · rw [if_neg hactive]
    rcases hnext : m.source.next with ⟨_ | _ | op, source⟩
    · rfl
    · rfl
    · simp [Recording.noting, hactive]

variable {program read : List ReadEvent} {before front : List Op} {op : Op} {depth : Nat}
  {m : Machine}

theorem passed_of_size_le (before : List Op) (h : m.recording.ops.size ≤ m.recording.cursor) :
    m.passed before = before ++ m.recording.ops.toList := by
  rw [passed, List.take_of_length_le (by simpa using h)]

theorem passed_of_empty (before : List Op) (h : m.recording.ops = #[]) :
    m.passed before = before := by
  simp [passed, h]

theorem within_injective {first second : Nat} (h : Mode.within first = Mode.within second) :
    first = second := by
  cases first <;> cases second <;> simp_all [Mode.within]

theorem within_eq_skipping {skipped : Nat} (h : Mode.within depth = .skipping skipped) :
    depth = skipped ∧ 0 < depth := by
  cases depth with
  | zero => simp [Mode.within] at h
  | succ depth => exact ⟨Mode.skipping.inj h, Nat.succ_pos depth⟩

theorem Represents.mode_ne_halted (h : Represents before depth m) : m.mode ≠ .halted := by
  rw [h.mode]
  cases depth <;> simp [Mode.within]

/-- The next operation is a recorded one. -/
theorem Represents.fetched_of_lt (h : Represents before depth m)
    (hlt : m.recording.cursor < m.recording.ops.size) :
    Fetched before (m.passed before) m.recording.ops[m.recording.cursor] depth
      { m with recording := { m.recording with cursor := m.recording.cursor + 1 } } where
  mode := h.mode
  cursor_le := hlt
  passed_eq := by
    simp only [passed, List.append_assoc, List.append_cancel_left_eq]
    rw [List.take_succ_eq_append_getElem (by simpa using hlt), Array.getElem_toList]
  depth_eq := h.depth_eq
  opened := h.opened
  outside := h.outside
  inside := by
    intro hactive
    obtain ⟨hbalanced, henclosed, hback⟩ := h.inside hactive
    refine ⟨hbalanced, henclosed, Nat.succ_pos _, ?_⟩
    intro hloops
    obtain ⟨hdepth, hcursor, hcell⟩ := hback hloops
    have hfirst := henclosed.1
    rw [List.head?_eq_getElem?, Array.getElem?_toList] at hfirst
    refine ⟨hdepth, by simp only [hcursor], ?_, hcell⟩
    simp only [hcursor]
    exact (Array.getElem?_eq_some_iff.mp hfirst).2

/-- The next operation is read and recorded. -/
theorem Represents.fetched_recording (h : Represents before depth m)
    (hactive : m.recording.ops ≠ #[]) (hend : m.recording.cursor = m.recording.ops.size) (op : Op)
    (source : Source) :
    Fetched before (m.passed before) op depth
      { m with
        recording := ⟨m.recording.ops.push op, m.recording.ops.size + 1⟩, source := source } := by
  obtain ⟨hbalanced, henclosed, hback⟩ := h.inside hactive
  have hpassed := passed_of_size_le before (Nat.le_of_eq hend.symm)
  have hsize : 0 < m.recording.ops.size := Array.size_pos_iff.mpr hactive
  -- With an empty stack the cursor would stand at the start of the recording, not at its end.
  have hloops : m.loops.positions ≠ #[] := by
    intro hloops
    have hcursor := (hback hloops).2.1
    omega
  have hdepth : depthFrom 0 m.recording.ops.toList = some (m.loops.depth + depth) := by
    have hall := h.depth_eq
    rwa [hpassed, depthFrom_append_of_eq hbalanced] at hall
  have hloopsDepth : 0 < m.loops.depth := Array.size_pos_iff.mpr hloops
  refine ⟨h.mode, by simp, ?_, h.depth_eq, h.opened, by simp, ?_⟩
  · rw [hpassed, passed_of_size_le before (by simp)]
    simp
  · intro _
    refine ⟨hbalanced, ?_, Nat.succ_pos _, fun hnil => absurd hnil hloops⟩
    have hpositive : depthFrom 0 m.recording.ops.toList
        = some (m.loops.depth + depth - 1 + 1) := by
      rw [hdepth, Nat.sub_add_cancel (by omega)]
    rw [Array.toList_push]
    exact henclosed.concat hpositive op

/-- The next operation is read and not recorded. -/
theorem Represents.fetched_unrecorded (h : Represents before depth m)
    (hinactive : m.recording.ops = #[]) (op : Op) (source : Source) :
    Fetched (before ++ [op]) (m.passed before) op depth { m with source := source } := by
  have hpassed := passed_of_empty before hinactive
  have hloops := h.outside hinactive
  refine ⟨h.mode, h.cursor_le, ?_, h.depth_eq, ?_, h.outside,
    fun hactive => absurd hinactive hactive⟩
  · simp [passed, hinactive]
  · simp [hloops]

/-- A machine that goes on, with the part of its program that it has read. -/
structure Follows (program read : List ReadEvent) (before : List Op) (depth : Nat) (m : Machine) :
    Prop extends Represents before depth m where
  reads : m.source.ReadsOn program read
  delivered_eq : operations (delivered read) = before ++ m.recording.ops.toList

/-- What has become of a machine by the fetch of an operation. -/
structure Fetches (program read : List ReadEvent) (before : List Op) (op : Op) (depth : Nat)
    (m m' : Machine) (read' : List ReadEvent) (before' : List Op) : Prop where
  fetched : Fetched before' (m.passed before) op depth m'
  reads : m'.source.ReadsOn program read'
  delivered_eq : operations (delivered read') = before' ++ m'.recording.ops.toList
  same : m' = { m with recording := m'.recording, source := m'.source }
  recorded : m.recording.ops ≠ #[] → before' = before ∧ m'.recording.ops ≠ #[]
  unrecorded : m.recording.ops = #[] → before' = before ++ [op] ∧ m'.recording.ops = #[] ∧
    ∃ front, Flowing front ∧ operations (delivered front) = before ∧
      read' = front ++ [.byte op.byte]

/-- A fetch delivers an operation, or meets the end of the program with every operation of it
passed, or reports a failed read. -/
theorem Follows.fetch_cases (h : Follows program read before depth m) :
    (∃ op m' read' before', m.fetch = (.ok (some op), m') ∧
        Fetches program read before op depth m m' read' before') ∨
      (∃ source, m.fetch = (.ok none, { m with source := source }) ∧ source.exhausted = true ∧
        source.offset = (delivered program).length ∧
        operations (delivered program) = m.passed before) ∨
      ∃ error m', m.fetch = (.error (.unavailable .program error), m') ∧ ¬ Unfailing program := by
  have hrep := h.toRepresents
  by_cases hlt : m.recording.cursor < m.recording.ops.size
  · have hactive : m.recording.ops ≠ #[] := Array.size_pos_iff.mp (by omega)
    refine Or.inl ⟨_, _, read, before, fetch_of_lt hlt, hrep.fetched_of_lt hlt, h.reads,
      h.delivered_eq, rfl, fun _ => ⟨rfl, hactive⟩, fun hnil => absurd hnil hactive⟩
  have hend : m.recording.cursor = m.recording.ops.size := by
    have hle := h.cursor_le
    omega
  have hpassed := passed_of_size_le before (Nat.le_of_eq hend.symm)
  rw [fetch_of_size_le (Nat.le_of_eq hend.symm)]
  obtain ⟨front, hflow, hfront, hcases⟩ := h.reads.next_cases
  rcases hcases with ⟨op, hnext, hreads⟩ | ⟨hnext, hexhausted, hall, hoffset⟩ |
    ⟨error, hnext, hfailing⟩
  · have hread : operations (delivered (front ++ [.byte op.byte]))
        = before ++ m.recording.ops.toList ++ [op] := by
      rw [delivered_append hflow, operations_append, hfront, h.delivered_eq]
      simp [delivered, operations]
    rw [hnext]
    by_cases hactive : m.recording.ops = #[]
    · have hnoting : m.recording.noting (.ok (some op)) = m.recording := by
        simp [Recording.noting, Recording.isActive, hactive]
      rw [hnoting]
      refine Or.inl ⟨op, _, _, _, rfl, hrep.fetched_unrecorded hactive op m.source.next.2,
        hreads, ?_, rfl, fun hne => absurd hactive hne,
        fun _ => ⟨rfl, hactive, front, hflow, ?_, rfl⟩⟩
      · rw [hread, hactive]
        simp
      · rw [hfront, h.delivered_eq, hactive]
        simp
    · have hnoting : m.recording.noting (.ok (some op))
          = ⟨m.recording.ops.push op, m.recording.ops.size + 1⟩ := by
        simp [Recording.noting, Recording.isActive, hactive]
      rw [hnoting]
      refine Or.inl ⟨op, _, _, before, rfl,
        hrep.fetched_recording hactive hend op m.source.next.2, hreads, ?_, rfl,
        fun _ => ⟨rfl, by simp⟩, fun hnil => absurd hnil hactive⟩
      rw [hread]
      simp
  · rw [hnext]
    refine Or.inr (Or.inl ⟨m.source.next.2, rfl, hexhausted, hoffset, ?_⟩)
    rw [hall, hfront, h.delivered_eq, hpassed]
  · rw [hnext]
    exact Or.inr (Or.inr ⟨error, _, rfl, hfailing⟩)

end Machine

end TapeMachine
