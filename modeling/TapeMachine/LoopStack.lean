/-!
# The stack of entered loops

Each loop that has been entered and not yet left is represented by the position of its opening
bracket in the recording of the current top-level loop, the outermost loop first.
-/

namespace TapeMachine

/-- The cause reported when a position is asked of an empty stack. -/
structure EmptyStack where
  deriving DecidableEq

/-- The wording of the cause. -/
def EmptyStack.message (_ : EmptyStack) : String := "control stack is empty"

/-- Positions of opening brackets, the innermost last. -/
structure LoopStack where
  positions : Array Nat
  deriving DecidableEq

namespace LoopStack

def empty : LoopStack := ⟨#[]⟩

def isEmpty (s : LoopStack) : Bool := s.positions.isEmpty

/-- The number of loops entered and not yet left. -/
def depth (s : LoopStack) : Nat := s.positions.size

def push (position : Nat) (s : LoopStack) : LoopStack := ⟨s.positions.push position⟩

/-- The innermost position, which stays on the stack. -/
def peek (s : LoopStack) : Except EmptyStack Nat :=
  match s.positions.back? with
  | some position => .ok position
  | none => .error {}

/-- Removes the innermost position. An empty stack is returned as it is. -/
def pop (s : LoopStack) : Except EmptyStack Nat × LoopStack := (s.peek, ⟨s.positions.pop⟩)

@[simp] theorem depth_empty : empty.depth = 0 := rfl

@[simp] theorem depth_push (position : Nat) (s : LoopStack) :
    (s.push position).depth = s.depth + 1 := by
  simp [depth, push]

@[simp] theorem pop_push (position : Nat) (s : LoopStack) :
    (s.push position).pop = (.ok position, s) := by
  simp [push, pop, peek]

end LoopStack

end TapeMachine
