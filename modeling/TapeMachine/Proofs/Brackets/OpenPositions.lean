import Mathlib.Data.List.Induction
import TapeMachine.Proofs.Brackets.Depth

/-!
# Brackets left open

The positions of the brackets that a sequence leaves open behave as a stack: an opening bracket adds
its own position at the end, a closing one removes the last, and whatever stands below is not looked
at. Up to each position that is still open the sequence leaves open what comes before it.
-/

namespace TapeMachine.Brackets

@[simp] theorem openPositions_nil : openPositions [] = [] := rfl

theorem openPositions_concat_open (ops : List Op) :
    openPositions (ops ++ [.loopOpen]) = openPositions ops ++ [ops.length] := by
  simp [openPositions, openFrom_append, openFrom]

theorem openPositions_concat_close (ops : List Op) :
    openPositions (ops ++ [.loopClose]) = (openPositions ops).dropLast := by
  simp [openPositions, openFrom_append, openFrom, List.dropLast_reverse]

theorem openFrom_plain {op : Op} (h : Plain op) (position : Nat) (stack : List Nat)
    (rest : List Op) :
    openFrom position stack (op :: rest) = openFrom (position + 1) stack rest := by
  obtain ⟨ho, hc⟩ := h
  cases op <;> first | exact absurd rfl ho | exact absurd rfl hc | rfl

theorem openPositions_concat_plain {op : Op} (h : Plain op) (ops : List Op) :
    openPositions (ops ++ [op]) = openPositions ops := by
  simp [openPositions, openFrom_append, openFrom_plain h, openFrom]

/-- The depth counts the brackets left open. -/
theorem length_openFrom {final : Nat} {stack : List Nat} {ops : List Op} (position : Nat)
    (h : depthFrom stack.length ops = some final) :
    (openFrom position stack ops).length = final := by
  induction ops generalizing position stack with
  | nil => exact Option.some.inj h
  | cons op rest ih =>
    cases op using bracketCases with
    | opening =>
      exact ih (position + 1) h
    | closing =>
      cases stack with
      | nil => simp [depthFrom] at h
      | cons opening stack => exact ih (position + 1) h
    | plain op hp =>
      rw [openFrom_plain hp]
      rw [depthFrom_plain hp] at h
      exact ih (position + 1) h

theorem length_openPositions {final : Nat} {ops : List Op} (h : depthFrom 0 ops = some final) :
    (openPositions ops).length = final := by
  rw [openPositions, List.length_reverse]
  exact length_openFrom 0 h

/-- Nothing is left open exactly where the depth is zero. -/
theorem openPositions_eq_nil {ops : List Op} (h : Balanced ops) : openPositions ops = [] :=
  List.eq_nil_of_length_eq_zero (length_openPositions h)

/-- Operations that close no bracket of the stack do not depend on it. -/
theorem openFrom_append_stack {final : Nat} {top : List Nat} {ops : List Op} (position : Nat)
    (h : depthFrom top.length ops = some final) (stack : List Nat) :
    openFrom position (top ++ stack) ops = openFrom position top ops ++ stack := by
  induction ops generalizing position top with
  | nil => rfl
  | cons op rest ih =>
    cases op using bracketCases with
    | opening =>
      exact @ih (position :: top) (position + 1) h
    | closing =>
      cases top with
      | nil => simp [depthFrom] at h
      | cons opening top => exact @ih top (position + 1) h
    | plain op hp =>
      rw [openFrom_plain hp, openFrom_plain hp]
      rw [depthFrom_plain hp] at h
      exact ih (position + 1) h

/-- A balanced sequence leaves the stack as it was. -/
theorem openFrom_of_balanced {ops : List Op} (h : Balanced ops) (position : Nat)
    (stack : List Nat) : openFrom position stack ops = stack := by
  have hnil : openFrom position [] ops = [] :=
    List.eq_nil_of_length_eq_zero (length_openFrom position h)
  have happend := @openFrom_append_stack 0 [] ops position h stack
  rwa [hnil] at happend

/-- Positions are counted from where the sequence starts. -/
theorem openFrom_shift (start position : Nat) (stack : List Nat) (ops : List Op) :
    openFrom (start + position) (stack.map (start + ·)) ops
      = (openFrom position stack ops).map (start + ·) := by
  induction ops generalizing position stack with
  | nil => rfl
  | cons op rest ih =>
    cases op using bracketCases with
    | opening =>
      exact ih (position + 1) (position :: stack)
    | closing =>
      have htail := ih (position + 1) stack.tail
      rwa [List.map_tail] at htail
    | plain op hp =>
      rw [openFrom_plain hp, openFrom_plain hp]
      exact ih (position + 1) stack

/-- Behind a balanced sequence the positions are those of the rest alone. -/
theorem openPositions_append {before : List Op} (h : Balanced before) (ops : List Op) :
    openPositions (before ++ ops) = (openPositions ops).map (before.length + ·) := by
  rw [openPositions, openFrom_append, openFrom_of_balanced h, openPositions, List.map_reverse,
    ← openFrom_shift]
  simp

/-- Only one bracket is the innermost that is left open. -/
theorem innermost_unique {ops : List Op} {below below' : List Nat} {opening opening' : Nat}
    (h : openPositions ops = below ++ [opening]) (h' : openPositions ops = below' ++ [opening']) :
    opening = opening' := by
  obtain ⟨-, heq⟩ := List.append_inj' (h.symm.trans h') rfl
  exact List.head_eq_of_cons_eq heq

/-- A position that is left open is that of an opening bracket, and up to it the sequence leaves
open what stands before it. -/
theorem openPositions_split {ops : List Op} {below above : List Nat} {position : Nat}
    (h : openPositions ops = below ++ position :: above) :
    position < ops.length ∧ ops[position]? = some .loopOpen ∧
      openPositions (ops.take position) = below := by
  induction ops using List.reverseRecOn generalizing above with
  | nil => simp at h
  | append_singleton ops op ih =>
    -- It suffices that the position is left open by the sequence without its last operation.
    have hearlier : ∀ {above : List Nat}, openPositions ops = below ++ position :: above →
        position < (ops ++ [op]).length ∧ (ops ++ [op])[position]? = some .loopOpen ∧
          openPositions ((ops ++ [op]).take position) = below := by
      intro above hops
      obtain ⟨hlt, hget, htake⟩ := ih hops
      refine ⟨by rw [List.length_append]; omega, ?_, ?_⟩
      · rw [List.getElem?_append_left hlt]
        exact hget
      · rw [List.take_append_of_le_length (by omega)]
        exact htake
    cases op using bracketCases with
    | opening =>
      rw [openPositions_concat_open] at h
      rcases List.eq_nil_or_concat above with rfl | ⟨above, last, rfl⟩
      · obtain ⟨hbelow, hposition⟩ := List.append_inj' h rfl
        obtain rfl : ops.length = position := by simpa using hposition
        refine ⟨by simp, by simp, ?_⟩
        rw [List.take_left]
        exact hbelow
      · rw [List.concat_eq_append, ← List.cons_append, ← List.append_assoc] at h
        exact hearlier (List.append_inj' h rfl).1
    | closing =>
      rw [openPositions_concat_close] at h
      have hne : openPositions ops ≠ [] := by
        intro hnil
        simp [hnil] at h
      have hlast := List.dropLast_append_getLast hne
      rw [h, List.append_assoc, List.cons_append] at hlast
      exact hearlier hlast.symm
    | plain op hp =>
      rw [openPositions_concat_plain hp] at h
      exact hearlier h

end TapeMachine.Brackets
