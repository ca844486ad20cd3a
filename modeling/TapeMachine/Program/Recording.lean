import TapeMachine.Program.Source

/-!
# The recording of a top-level loop

The program can be read only once, so the operations of a loop are recorded while they are first
delivered, starting with the opening bracket of the outermost loop entered. Later passes are served
from the recording. Past its end the recording goes on with the source, so it behaves as a stream
that can be rewound.
-/

namespace TapeMachine

/-- Recorded operations and the position of the next one to deliver. -/
structure Recording where
  ops : Array Op
  cursor : Nat
  deriving DecidableEq

namespace Recording

/-- Nothing is recorded. -/
def empty : Recording := ⟨#[], 0⟩

def size (r : Recording) : Nat := r.ops.size

/-- A loop is being recorded or replayed. -/
def isActive (r : Recording) : Bool := !r.ops.isEmpty

/-- Starts a recording with an operation that has been delivered already, at position 0. -/
def start (op : Op) : Recording := ⟨#[op], 1⟩

/-- The position of the operation delivered last. -/
def lastPosition (r : Recording) : Nat := r.cursor - 1

/-- Delivers the next operation: from the recording as long as it has one, then from the source, in
which case the operation is recorded. At the end of the program and on a failed read the recording
stays as it is. -/
def fetch (r : Recording) (source : Source) : Except Fault (Option Op) × Recording × Source :=
  match r.ops[r.cursor]? with
  | some op => (.ok (some op), { r with cursor := r.cursor + 1 }, source)
  | none =>
    match source.next with
    | (.ok (some op), source) =>
      -- The size is taken first: an array that is still needed would be copied to grow.
      let size := r.ops.size
      (.ok (some op), ⟨r.ops.push op, size + 1⟩, source)
    | (result, source) => (result, r, source)

/-- Goes back to a recorded position. -/
def rewind (position : Nat) (r : Recording) : Recording := { r with cursor := position }

/-- What has been recorded is delivered again, and nothing is read for it. -/
theorem fetch_of_lt {r : Recording} (source : Source) (h : r.cursor < r.ops.size) :
    r.fetch source = (.ok (some r.ops[r.cursor]), { r with cursor := r.cursor + 1 }, source) := by
  simp [fetch, h]

/-- Beyond its end the recording delivers what the source delivers. -/
theorem fetch_of_size_le {r : Recording} (source : Source) (h : r.ops.size ≤ r.cursor) :
    (r.fetch source).1 = source.next.1 ∧ (r.fetch source).2.2 = source.next.2 := by
  unfold fetch
  rw [Array.getElem?_eq_none h]
  dsimp only
  split <;> simp_all

end Recording

end TapeMachine
