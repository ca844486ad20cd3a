import Mathlib.Logic.Basic
import TapeMachine.Tape.Basic

/-!
# The ends of a tape

A move that stays on the tape takes the cursor one cell on, whatever the boundary. Boundaries differ
only in what they make of a move past an end: the cursor goes on at the other end, or stays, or
comes to a cell that is appended, or the move is refused.
-/

namespace TapeMachine

/-- By how much a move in the direction changes the cursor, as long as it stays on the tape. -/
def Direction.offset : Direction → Int
  | left => -1
  | right => 1

namespace Tape

/-- A move in the direction leads past an end. -/
def AtEnd : Direction → Tape → Prop
  | .left, t => t.cursor = 0
  | .right, t => t.cursor + 1 = t.size

/-- The cell that a move in the direction comes to from the last cell if the ends are joined. -/
def farEnd : Direction → Tape → Nat
  | .left, t => t.size - 1
  | .right, _ => 0

def withBoundary (boundary : Boundary) (t : Tape) : Tape := { t with boundary := boundary }

variable {t : Tape} {direction : Direction} {boundary : Boundary} {fault : Fault}

theorem boundary_move (direction : Direction) (t : Tape) :
    (t.move direction).2.boundary = t.boundary := by
  cases direction with
  | left =>
    simp only [move, moveLeft]
    split
    · rfl
    · split <;> rfl
  | right =>
    simp only [move, moveRight]
    split
    · rfl
    · split <;> rfl

/-- What a strict tape allows every other one does as well. -/
theorem move_withBoundary (hstrict : t.boundary = .strict)
    (h : (t.move direction).1 = .ok ()) (boundary : Boundary) :
    (t.withBoundary boundary).move direction
      = (.ok (), (t.move direction).2.withBoundary boundary) := by
  cases direction with
  | left =>
    simp only [withBoundary, move, moveLeft, hstrict] at h ⊢
    split at h
    · next hinside => simp only [hinside, if_true]
    · simp at h
  | right =>
    simp only [withBoundary, move, moveRight, hstrict] at h ⊢
    split at h
    · next hinside => simp only [hinside, if_true]
    · simp at h

theorem AtEnd.not_pos (h : t.AtEnd .left) : ¬0 < t.cursor := Nat.not_lt.mpr (Nat.le_of_eq h)

theorem AtEnd.not_lt (h : t.AtEnd .right) : ¬t.cursor + 1 < t.cells.size :=
  Nat.not_lt.mpr (Nat.le_of_eq h.symm)

/-- Only at an end of the tape is a move refused. -/
theorem atEnd_of_refused (hbounds : t.InBounds) (h : (t.move direction).1 = .error fault) :
    t.AtEnd direction := by
  cases direction with
  | left =>
    simp only [move, moveLeft] at h
    split at h
    · simp at h
    · next hend => exact Nat.eq_zero_of_not_pos hend
  | right =>
    simp only [move, moveRight] at h
    split at h
    · simp at h
    · next hend =>
      unfold InBounds at hbounds
      change t.cursor + 1 = t.cells.size
      omega

theorem move_wrap (hboundary : t.boundary = .wrap) (h : t.AtEnd direction) :
    t.move direction = (.ok (), { t with cursor := t.farEnd direction }) := by
  cases direction with
  | left =>
    simp only [move, moveLeft, if_neg h.not_pos, hboundary]
    rfl
  | right =>
    simp only [move, moveRight, if_neg h.not_lt, hboundary]
    rfl

theorem move_clamp (hboundary : t.boundary = .clamp) (h : t.AtEnd direction) :
    t.move direction = (.ok (), t) := by
  cases direction with
  | left =>
    simp only [move, moveLeft, if_neg h.not_pos, hboundary]
  | right =>
    simp only [move, moveRight, if_neg h.not_lt, hboundary]

theorem move_growRight_right (hboundary : t.boundary = .growRight) (h : t.AtEnd .right) :
    t.move .right = (.ok (), { t with cells := t.cells.push 0, cursor := t.cursor + 1 }) := by
  simp only [move, moveRight, if_neg h.not_lt, hboundary]

theorem move_growRight_left (hboundary : t.boundary = .growRight) (h : t.AtEnd .left) :
    t.move .left = (.error (t.refusal .left), t) := by
  simp only [move, moveLeft, if_neg h.not_pos, hboundary]

theorem move_strict (hboundary : t.boundary = .strict) (h : t.AtEnd direction) :
    t.move direction = (.error (t.refusal direction), t) := by
  cases direction with
  | left =>
    simp only [move, moveLeft, if_neg h.not_pos, hboundary]
  | right =>
    simp only [move, moveRight, if_neg h.not_lt, hboundary]

/-- Where a move in the direction leads to, on the tape or past its end. -/
def target (direction : Direction) (t : Tape) : Int := t.cursor + direction.offset

theorem atEnd_iff (hbounds : t.InBounds) :
    t.AtEnd direction ↔ ¬(0 ≤ t.target direction ∧ t.target direction < t.size) := by
  unfold InBounds at hbounds
  cases direction <;> simp only [AtEnd, target, Direction.offset, size] <;> omega

/-- A move that stays on the tape succeeds under every boundary. -/
theorem move_of_not_atEnd (hbounds : t.InBounds) (h : ¬t.AtEnd direction) :
    t.move direction = (.ok (), { t with cursor := (t.target direction).toNat }) := by
  unfold InBounds at hbounds
  cases direction with
  | left =>
    have hpos : 0 < t.cursor := Nat.pos_of_ne_zero h
    have htarget : (t.target .left).toNat = t.cursor - 1 := by
      simp only [target, Direction.offset]
      omega
    rw [htarget, move, moveLeft, if_pos hpos]
  | right =>
    have hlt : t.cursor + 1 < t.cells.size := by
      simp only [AtEnd, size] at h
      omega
    have htarget : (t.target .right).toNat = t.cursor + 1 := by
      simp only [target, Direction.offset]
      omega
    rw [htarget, move, moveRight, if_pos hlt]

/-- A move that does not succeed is refused, and the tape stays as it was. -/
theorem move_of_ne_ok (h : (t.move direction).1 ≠ .ok ()) :
    t.move direction = (.error (t.refusal direction), t) := by
  cases hmove : (t.move direction).1 with
  | ok => exact absurd hmove h
  | error fault => exact move_error hmove

theorem move_strict_ok_iff (hbounds : t.InBounds) (hboundary : t.boundary = .strict) :
    (t.move direction).1 = .ok () ↔ 0 ≤ t.target direction ∧ t.target direction < t.size := by
  rw [← not_iff_not, ← atEnd_iff hbounds]
  by_cases hend : t.AtEnd direction
  · rw [move_strict hboundary hend]
    exact iff_of_true (by simp) hend
  · rw [move_of_not_atEnd hbounds hend]
    exact iff_of_false (by simp) hend

theorem moveRight_growRight_ok (hbounds : t.InBounds) (hboundary : t.boundary = .growRight) :
    (t.move .right).1 = .ok () := by
  by_cases hend : t.AtEnd .right
  · rw [move_growRight_right hboundary hend]
  · rw [move_of_not_atEnd hbounds hend]

theorem moveLeft_growRight_ok_iff (hbounds : t.InBounds) (hboundary : t.boundary = .growRight) :
    (t.move .left).1 = .ok () ↔ t.cursor ≠ 0 := by
  by_cases hend : t.AtEnd .left
  · rw [move_growRight_left hboundary hend]
    exact iff_of_false (by simp) (not_not.mpr hend)
  · rw [move_of_not_atEnd hbounds hend]
    exact iff_of_true rfl hend

end Tape

end TapeMachine
