import TapeMachine.Program.Listing

/-!
# Brackets

The bracket structure of a sequence of operations, as a matter of the text alone. A closing bracket
is matched with the innermost opening bracket before it that is still open, and is unmatched if
there is none.
-/

namespace TapeMachine.Brackets

/-- The number of open brackets after the operations, if `depth` are open before them. There is no
answer if a closing bracket is unmatched. -/
def depthFrom : Nat → List Op → Option Nat
  | depth, [] => some depth
  | depth, .loopOpen :: rest => depthFrom (depth + 1) rest
  | 0, .loopClose :: _ => none
  | depth + 1, .loopClose :: rest => depthFrom depth rest
  | depth, _ :: rest => depthFrom depth rest

/-- Every bracket has a partner among the operations. -/
def Balanced (ops : List Op) : Prop := depthFrom 0 ops = some 0

instance (ops : List Op) : Decidable (Balanced ops) :=
  inferInstanceAs (Decidable (depthFrom 0 ops = some 0))

/-- The positions of the brackets left open, the innermost first. The first operation has the
given position, and the brackets open before it are given. An unmatched bracket closes nothing. -/
def openFrom : Nat → List Nat → List Op → List Nat
  | _, stack, [] => stack
  | position, stack, .loopOpen :: rest => openFrom (position + 1) (position :: stack) rest
  | position, stack, .loopClose :: rest => openFrom (position + 1) stack.tail rest
  | position, stack, _ :: rest => openFrom (position + 1) stack rest

/-- The positions of the brackets that the operations leave open, in order. -/
def openPositions (ops : List Op) : List Nat := (openFrom 0 [] ops).reverse

/-- The partners, each as the positions of an opening bracket and of the bracket that closes it. -/
def partnersFrom : Nat → List Nat → List Op → List (Nat × Nat)
  | _, _, [] => []
  | position, stack, .loopOpen :: rest => partnersFrom (position + 1) (position :: stack) rest
  | position, [], .loopClose :: rest => partnersFrom (position + 1) [] rest
  | position, opening :: stack, .loopClose :: rest =>
    (opening, position) :: partnersFrom (position + 1) stack rest
  | position, stack, _ :: rest => partnersFrom (position + 1) stack rest

/-- The pairs of partners among the operations. -/
def partners (ops : List Op) : List (Nat × Nat) := partnersFrom 0 [] ops

/-- The number of opening brackets in a text. -/
def openings (text : List UInt8) : Nat := text.count Op.loopOpen.byte

/-- The number of closing brackets in a text. -/
def closings (text : List UInt8) : Nat := text.count Op.loopClose.byte

/-- No part of the text up to a byte closes more brackets than it opens. -/
def NeverOverclosed (text : List UInt8) : Prop :=
  ∀ length, closings (text.take length) ≤ openings (text.take length)

/-- The byte at the offset is the first with which the text has closed more brackets than it has
opened. -/
structure FirstUnmatched (text : List UInt8) (offset : Nat) : Prop where
  within : offset < text.length
  overclosed : openings (text.take (offset + 1)) < closings (text.take (offset + 1))
  first : ∀ length ≤ offset, closings (text.take length) ≤ openings (text.take length)

theorem depthFrom_append (depth : Nat) (first second : List Op) :
    depthFrom depth (first ++ second) = (depthFrom depth first).bind (depthFrom · second) := by
  fun_induction depthFrom depth first <;> simp_all [depthFrom]

theorem openFrom_append (position : Nat) (stack : List Nat) (first second : List Op) :
    openFrom position stack (first ++ second) =
      openFrom (position + first.length) (openFrom position stack first) second := by
  fun_induction openFrom position stack first <;> simp_all [openFrom] <;> congr 1 <;> omega

end TapeMachine.Brackets
