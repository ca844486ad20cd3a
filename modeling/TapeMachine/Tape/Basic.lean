import TapeMachine.Fault
import TapeMachine.Tape.Boundary

/-!
# The tape

A row of byte cells with a cursor. Cell values count modulo 256. A move inside the tape always
succeeds; a move past an end follows the boundary of the tape, and one that the boundary refuses
leaves the tape as it was. `InBounds` says that the cursor stands on a cell. The operations do not
ask for it: outside it the current cell reads as zero and writing has no effect.
-/

namespace TapeMachine

/-- Cells, cursor and the rule for moves past the ends. -/
structure Tape where
  cells : Array UInt8
  cursor : Nat
  boundary : Boundary
  deriving DecidableEq

namespace Tape

/-- The cursor stands on a cell. -/
def InBounds (t : Tape) : Prop := t.cursor < t.cells.size

/-- A tape of zero cells with the cursor in the middle. -/
def blank (size : Nat) (boundary : Boundary) : Tape :=
  ⟨Array.replicate size 0, size / 2, boundary⟩

/-- The number of cells. -/
def size (t : Tape) : Nat := t.cells.size

/-- The value of the cell under the cursor. -/
def current (t : Tape) : UInt8 := t.cells[t.cursor]?.getD 0

/-- Replaces the value of the cell under the cursor. -/
def set (value : UInt8) (t : Tape) : Tape :=
  { t with cells := t.cells.setIfInBounds t.cursor value }

def increment (t : Tape) : Tape := t.set (t.current + 1)

def decrement (t : Tape) : Tape := t.set (t.current - 1)

/-- The fault of a move that the boundary refuses. -/
def refusal (direction : Direction) (t : Tape) : Fault :=
  .outOfBounds t.cursor t.size direction

def moveRight (t : Tape) : Except Fault Unit × Tape :=
  if t.cursor + 1 < t.cells.size then (.ok (), { t with cursor := t.cursor + 1 })
  else
    match t.boundary with
    | .wrap => (.ok (), { t with cursor := 0 })
    | .clamp => (.ok (), t)
    | .growRight => (.ok (), { t with cells := t.cells.push 0, cursor := t.cursor + 1 })
    | .strict => (.error (t.refusal .right), t)

def moveLeft (t : Tape) : Except Fault Unit × Tape :=
  if 0 < t.cursor then (.ok (), { t with cursor := t.cursor - 1 })
  else
    match t.boundary with
    | .wrap => (.ok (), { t with cursor := t.cells.size - 1 })
    | .clamp => (.ok (), t)
    | .growRight | .strict => (.error (t.refusal .left), t)

/-- Moves the cursor by one cell. -/
def move : Direction → Tape → Except Fault Unit × Tape
  | .left, t => t.moveLeft
  | .right, t => t.moveRight

theorem inBounds_blank {size : Nat} (boundary : Boundary) (h : 0 < size) :
    (blank size boundary).InBounds := by
  simp only [InBounds, blank, Array.size_replicate]
  omega

@[simp] theorem size_set (value : UInt8) (t : Tape) : (t.set value).size = t.size := by
  simp [set, size]

@[simp] theorem inBounds_set {value : UInt8} {t : Tape} : (t.set value).InBounds ↔ t.InBounds := by
  simp [InBounds, set]

theorem current_set {t : Tape} (value : UInt8) (h : t.InBounds) :
    (t.set value).current = value := by
  unfold InBounds at h
  simp [set, current, h]

theorem inBounds_moveRight {t : Tape} (h : t.InBounds) : t.moveRight.2.InBounds := by
  unfold InBounds at h
  unfold moveRight
  split
  · assumption
  · split
    · exact Nat.zero_lt_of_lt h
    · exact h
    · simp only [InBounds, Array.size_push]
      omega
    · exact h

theorem inBounds_moveLeft {t : Tape} (h : t.InBounds) : t.moveLeft.2.InBounds := by
  unfold InBounds at h
  unfold moveLeft
  split
  · simp only [InBounds]
    omega
  · split
    · simp only [InBounds]
      omega
    · exact h
    · exact h
    · exact h

/-- No move takes the cursor off the tape, whatever the boundary. -/
theorem inBounds_move {t : Tape} (direction : Direction) (h : t.InBounds) :
    (t.move direction).2.InBounds := by
  cases direction with
  | left => exact inBounds_moveLeft h
  | right => exact inBounds_moveRight h

theorem moveRight_error {t : Tape} {fault : Fault} (h : t.moveRight.1 = .error fault) :
    t.moveRight = (.error (t.refusal .right), t) := by
  unfold moveRight at h ⊢
  split
  · simp_all
  · split <;> simp_all

theorem moveLeft_error {t : Tape} {fault : Fault} (h : t.moveLeft.1 = .error fault) :
    t.moveLeft = (.error (t.refusal .left), t) := by
  unfold moveLeft at h ⊢
  split
  · simp_all
  · split <;> simp_all

/-- A refused move leaves the tape as it was, and its fault tells where the cursor stands. -/
theorem move_error {t : Tape} {direction : Direction} {fault : Fault}
    (h : (t.move direction).1 = .error fault) :
    t.move direction = (.error (t.refusal direction), t) := by
  cases direction with
  | left => exact moveLeft_error h
  | right => exact moveRight_error h

end Tape

end TapeMachine
