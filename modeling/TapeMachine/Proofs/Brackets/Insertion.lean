import TapeMachine.Proofs.Brackets.OpenPositions

/-!
# A balanced part put between two others

Balanced operations can be put between two parts of a sequence without any bracket outside them
getting another partner: the positions behind them move on by their length, and nothing else
changes. The same holds of the bytes of a text and of the first byte with an unmatched bracket.
-/

namespace TapeMachine.Brackets

/-- A loop with the given body. -/
def enclose (body : List Op) : List Op := .loopOpen :: (body ++ [.loopClose])

/-- The text of a loop. -/
def looped (body : List UInt8) : List UInt8 := Op.loopOpen.byte :: (body ++ [Op.loopClose.byte])

/-- The place of what stood at a position before so much was put in at the start. -/
def moved (start length position : Nat) : Nat :=
  if position < start then position else position + length

theorem moved_of_lt {start position : Nat} (length : Nat) (h : position < start) :
    moved start length position = position :=
  if_pos h

theorem moved_of_le {start position : Nat} (length : Nat) (h : start ≤ position) :
    moved start length position = position + length :=
  if_neg (Nat.not_lt.mpr h)

/-- Operations that close nothing but what they open go on from any depth. -/
theorem depthFrom_add {depth final : Nat} {ops : List Op} (h : depthFrom depth ops = some final)
    (more : Nat) : depthFrom (more + depth) ops = some (more + final) := by
  induction ops generalizing depth with
  | nil =>
    obtain rfl := Option.some.inj h
    rfl
  | cons op rest ih =>
    cases op using bracketCases with
    | opening => exact @ih (depth + 1) h
    | closing =>
      cases depth with
      | zero => simp [depthFrom] at h
      | succ depth => exact @ih depth h
    | plain op hp =>
      rw [depthFrom_plain hp] at h ⊢
      exact ih h

theorem Balanced.depthFrom {ops : List Op} (h : Balanced ops) (depth : Nat) :
    depthFrom depth ops = some depth :=
  depthFrom_add h depth

theorem Balanced.enclose {body : List Op} (h : Balanced body) : Balanced (enclose body) := by
  show Brackets.depthFrom 1 (body ++ [.loopClose]) = some 0
  rw [depthFrom_append_of_eq (h.depthFrom 1)]
  rfl

theorem operations_looped (body : List UInt8) :
    Listing.operations (looped body) = enclose (Listing.operations body) := by
  rw [looped, ← List.singleton_append, Listing.operations_append, Listing.operations_append]
  rfl

@[simp] theorem length_looped (body : List UInt8) : (looped body).length = body.length + 2 := by
  simp [looped]

theorem balanced_looped {body : List UInt8} (h : Balanced (Listing.operations body)) :
    Balanced (Listing.operations (looped body)) := by
  rw [operations_looped]
  exact h.enclose

section Positions

variable {front inserted rest ops : List Op} {position : Nat}

theorem lt_length_of_mem (h : position ∈ openPositions ops) : position < ops.length := by
  obtain ⟨below, above, hsplit⟩ := List.append_of_mem h
  exact (openPositions_split hsplit).1

theorem openPositions_append_balanced (front : List Op) (h : Balanced inserted) :
    openPositions (front ++ inserted) = openPositions front := by
  rw [openPositions, openFrom_append, openFrom_of_balanced h, openPositions]

/-- Operations that close nothing before them leave open what was open, and what they open. -/
theorem openPositions_append_of_depth {final : Nat} (front : List Op)
    (h : depthFrom 0 ops = some final) : openPositions (front ++ ops)
      = openPositions front ++ (openPositions ops).map (front.length + ·) := by
  have hstack := @openFrom_append_stack final [] ops front.length h (openFrom 0 [] front)
  have hshift := openFrom_shift front.length 0 [] ops
  rw [List.nil_append] at hstack
  rw [List.map_nil, Nat.add_zero] at hshift
  rw [openPositions, openFrom_append, Nat.zero_add, hstack, hshift, List.reverse_append,
    ← List.map_reverse]
  rfl

/-- What is left open stays open, at the place to which it has moved. -/
theorem openPositions_insert (front rest : List Op) (h : Balanced inserted) :
    openPositions (front ++ inserted ++ rest)
      = (openPositions (front ++ rest)).map (moved front.length inserted.length) := by
  induction rest using List.reverseRecOn with
  | nil =>
    have hstays : ∀ position ∈ openPositions front,
        moved front.length inserted.length position = position :=
      fun position hmem => moved_of_lt inserted.length (lt_length_of_mem hmem)
    rw [List.append_nil, List.append_nil, openPositions_append_balanced front h,
      List.map_congr_left hstays, List.map_id']
  | append_singleton rest op ih =>
    rw [← List.append_assoc, ← List.append_assoc]
    cases op using bracketCases with
    | opening =>
      rw [openPositions_concat_open, openPositions_concat_open, ih, List.map_append,
        List.map_singleton, moved_of_le inserted.length (by simp)]
      simp only [List.length_append, Nat.add_right_comm]
    | closing =>
      rw [openPositions_concat_close, openPositions_concat_close, ih, List.map_dropLast]
    | plain op hp =>
      rw [openPositions_concat_plain hp, openPositions_concat_plain hp, ih]

end Positions

section Bytes

variable {first inserted last : List UInt8} {offset : Nat}

@[simp] theorem openings_nil : openings [] = 0 := rfl

@[simp] theorem closings_nil : closings [] = 0 := rfl

theorem openings_take_append (first second : List UInt8) (length : Nat) :
    openings ((first ++ second).take length)
      = openings (first.take length) + openings (second.take (length - first.length)) := by
  rw [List.take_append, openings, List.count_append]
  rfl

theorem closings_take_append (first second : List UInt8) (length : Nat) :
    closings ((first ++ second).take length)
      = closings (first.take length) + closings (second.take (length - first.length)) := by
  rw [List.take_append, closings, List.count_append]
  rfl

/-- A text has one first unmatched bracket at most. -/
theorem FirstUnmatched.unique {text : List UInt8} {offset' : Nat} (h : FirstUnmatched text offset)
    (h' : FirstUnmatched text offset') : offset = offset' := by
  have hover := h.overclosed
  have hover' := h'.overclosed
  by_contra hne
  rcases Nat.lt_or_gt_of_ne hne with hlt | hlt
  · have hfirst := h'.first (offset + 1) hlt
    omega
  · have hfirst := h.first (offset' + 1) hlt
    omega

/-- No bracket of a balanced part of a text is the first unmatched one. -/
theorem FirstUnmatched.outside (h : FirstUnmatched (first ++ (inserted ++ last)) offset)
    (hins : Balanced (Listing.operations inserted)) :
    offset < first.length ∨ first.length + inserted.length ≤ offset := by
  obtain ⟨-, hover, hfirst⟩ := h
  obtain ⟨hnever, -⟩ := neverOverclosed_of_depth hins
  by_contra hinside
  have hbefore := hfirst first.length (by omega)
  have hpart := hnever (offset + 1 - first.length)
  have hrest : offset + 1 - first.length - inserted.length = 0 := by omega
  simp only [openings_take_append, closings_take_append] at hover hbefore
  rw [List.take_of_length_le (by omega), hrest] at hover
  simp only [List.take_length, Nat.sub_self, List.take_zero, openings_nil, closings_nil,
    Nat.zero_sub] at hover hbefore
  omega

/-- Whether a bracket is the first unmatched one does not depend on what comes behind it. -/
theorem FirstUnmatched.ahead (h : FirstUnmatched (first ++ last) offset)
    (hlt : offset < first.length) (other : List UInt8) : FirstUnmatched (first ++ other) offset := by
  obtain ⟨-, hover, hfirst⟩ := h
  refine ⟨by rw [List.length_append]; omega, ?_, fun length hle => ?_⟩
  · rw [List.take_append_of_le_length hlt] at hover ⊢
    exact hover
  · have hbefore := hfirst length hle
    rw [List.take_append_of_le_length (by omega)] at hbefore ⊢
    exact hbefore

/-- Behind a place the first unmatched bracket moves on with what is put in there. -/
theorem FirstUnmatched.behind (h : FirstUnmatched (first ++ last) offset)
    (hle : first.length ≤ offset) (hins : Balanced (Listing.operations inserted)) :
    FirstUnmatched (first ++ (inserted ++ last)) (offset + inserted.length) := by
  obtain ⟨hwithin, hover, hfirst⟩ := h
  obtain ⟨hnever, hcount⟩ := neverOverclosed_of_depth hins
  rw [List.length_append] at hwithin
  simp only [openings_take_append, closings_take_append] at hover hfirst
  refine ⟨by simp only [List.length_append]; omega, ?_, fun length hlength => ?_⟩
  all_goals simp only [openings_take_append, closings_take_append]
  · have hbehind : offset + inserted.length + 1 - first.length - inserted.length
        = offset + 1 - first.length := by omega
    rw [List.take_of_length_le (by omega)] at hover ⊢
    rw [List.take_of_length_le (l := inserted) (by omega), hbehind]
    omega
  · -- The part closes nothing before it, so it counts as if only the bytes outside it were there.
    have hinside := hnever (length - first.length)
    by_cases hpast : first.length ≤ length
    · have hbefore := hfirst (first.length + (length - first.length - inserted.length)) (by omega)
      rw [List.take_of_length_le (Nat.le_add_right _ _), Nat.add_sub_cancel_left] at hbefore
      rw [List.take_of_length_le hpast]
      omega
    · have hbefore := hfirst length (by omega)
      rw [Nat.sub_eq_zero_of_le (by omega)] at hbefore ⊢
      simpa using hbefore

/-- A balanced part of a text matches no bracket outside it. -/
theorem FirstUnmatched.insert (h : FirstUnmatched (first ++ last) offset)
    (hins : Balanced (Listing.operations inserted)) :
    FirstUnmatched (first ++ (inserted ++ last)) (moved first.length inserted.length offset) := by
  rcases Nat.lt_or_ge offset first.length with hlt | hle
  · rw [moved_of_lt _ hlt]
    exact h.ahead hlt _
  · rw [moved_of_le _ hle]
    exact h.behind hle hins

end Bytes

end TapeMachine.Brackets
