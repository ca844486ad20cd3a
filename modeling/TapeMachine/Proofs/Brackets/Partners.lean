import TapeMachine.Proofs.Brackets.OpenPositions

/-!
# Looking up partners

The partner of a closing bracket is the innermost bracket that is open before it; it has none if
nothing is open. The partner of an opening bracket ends the balanced sequence behind it; it has none
if what follows never closes it.
-/

namespace TapeMachine.Brackets

theorem partnersFrom_plain {op : Op} (h : Plain op) (position : Nat) (stack : List Nat)
    (rest : List Op) :
    partnersFrom position stack (op :: rest) = partnersFrom (position + 1) stack rest := by
  obtain ⟨ho, hc⟩ := h
  cases op <;> first | exact absurd rfl ho | exact absurd rfl hc | rfl

theorem partnersFrom_append (position : Nat) (stack : List Nat) (first second : List Op) :
    partnersFrom position stack (first ++ second) = partnersFrom position stack first ++
      partnersFrom (position + first.length) (openFrom position stack first) second := by
  induction first generalizing position stack with
  | nil => rfl
  | cons op rest ih =>
    rw [List.cons_append, List.length_cons, Nat.add_comm rest.length, ← Nat.add_assoc]
    cases op using bracketCases with
    | opening =>
      exact ih (position + 1) (position :: stack)
    | closing =>
      cases stack with
      | nil => exact ih (position + 1) []
      | cons opening stack => exact congrArg (_ :: ·) (ih (position + 1) stack)
    | plain op hp =>
      rw [partnersFrom_plain hp, partnersFrom_plain hp, openFrom_plain hp]
      exact ih (position + 1) stack

/-- A partner that closes a bracket stands among the operations; one that opens it stands there too
or is on the stack. -/
theorem bounds_of_mem_partnersFrom {position : Nat} {stack : List Nat} {ops : List Op}
    {pair : Nat × Nat} (h : pair ∈ partnersFrom position stack ops) :
    (pair.1 ∈ stack ∨ position ≤ pair.1 ∧ pair.1 < position + ops.length) ∧
      position ≤ pair.2 ∧ pair.2 < position + ops.length := by
  induction ops generalizing position stack with
  | nil => simp [partnersFrom] at h
  | cons op rest ih =>
    rw [List.length_cons]
    cases op using bracketCases with
    | opening =>
      obtain ⟨hfirst, hsecond⟩ := @ih (position + 1) (position :: stack) h
      refine ⟨?_, by omega, by omega⟩
      rcases hfirst with hmem | hrange
      · rcases List.mem_cons.mp hmem with heq | hmem
        · exact Or.inr (by omega)
        · exact Or.inl hmem
      · exact Or.inr (by omega)
    | closing =>
      cases stack with
      | nil =>
        obtain ⟨hfirst, hsecond⟩ := @ih (position + 1) [] h
        refine ⟨?_, by omega, by omega⟩
        exact hfirst.imp_right fun hrange => by omega
      | cons opening stack =>
        rcases List.mem_cons.mp h with rfl | h
        · exact ⟨Or.inl (by simp), by simp⟩
        · obtain ⟨hfirst, hsecond⟩ := @ih (position + 1) stack h
          refine ⟨?_, by omega, by omega⟩
          exact hfirst.imp (List.mem_cons_of_mem _) fun hrange => by omega
    | plain op hp =>
      rw [partnersFrom_plain hp] at h
      obtain ⟨hfirst, hsecond⟩ := ih h
      refine ⟨?_, by omega, by omega⟩
      exact hfirst.imp_right fun hrange => by omega

/-- Operations that close no bracket of the stack do not pair any of its brackets. -/
theorem partnersFrom_append_stack {final : Nat} {top : List Nat} {ops : List Op} (position : Nat)
    (h : depthFrom top.length ops = some final) (stack : List Nat) :
    partnersFrom position (top ++ stack) ops = partnersFrom position top ops := by
  induction ops generalizing position top with
  | nil => rfl
  | cons op rest ih =>
    cases op using bracketCases with
    | opening => exact @ih (position :: top) (position + 1) h
    | closing =>
      cases top with
      | nil => simp [depthFrom] at h
      | cons opening top => exact congrArg (_ :: ·) (@ih top (position + 1) h)
    | plain op hp =>
      rw [partnersFrom_plain hp, partnersFrom_plain hp]
      rw [depthFrom_plain hp] at h
      exact ih (position + 1) h

theorem partnersFrom_of_depth {final : Nat} {ops : List Op} (h : depthFrom 0 ops = some final)
    (position : Nat) (stack : List Nat) :
    partnersFrom position stack ops = partnersFrom position [] ops :=
  @partnersFrom_append_stack final [] ops position h stack

theorem partners_append (front rest : List Op) :
    partners (front ++ rest)
      = partners front ++ partnersFrom front.length (openPositions front).reverse rest := by
  rw [partners, partnersFrom_append, openPositions, List.reverse_reverse, Nat.zero_add, partners]

/-- A place outside the operations is not that of a closing partner. -/
theorem find_snd_eq_none {position place : Nat} {stack : List Nat} {ops : List Op}
    (h : place < position ∨ position + ops.length ≤ place) :
    (partnersFrom position stack ops).find? (fun pair => pair.2 == place) = none := by
  rw [List.find?_eq_none]
  intro pair hmem
  obtain ⟨hle, hlt⟩ := (bounds_of_mem_partnersFrom hmem).2
  simp only [beq_iff_eq]
  omega

/-- A place outside the operations and not on the stack is not that of an opening partner. -/
theorem find_fst_eq_none {position place : Nat} {stack : List Nat} {ops : List Op}
    (hstack : place ∉ stack) (h : place < position ∨ position + ops.length ≤ place) :
    (partnersFrom position stack ops).find? (fun pair => pair.1 == place) = none := by
  rw [List.find?_eq_none]
  intro pair hmem
  simp only [beq_iff_eq]
  rintro rfl
  rcases (bounds_of_mem_partnersFrom hmem).1 with hin | hrange
  · exact hstack hin
  · omega

/-- The bracket that a closing bracket closes is the innermost one open before it. -/
theorem find_opening {front : List Op} {below : List Nat} {opening : Nat}
    (h : openPositions front = below ++ [opening]) (rest : List Op) :
    (partners (front ++ .loopClose :: rest)).find? (fun pair => pair.2 == front.length)
      = some (opening, front.length) := by
  rw [partners_append, h, List.find?_append, partners, find_snd_eq_none (by omega)]
  simp [partnersFrom]

/-- A closing bracket before which nothing is open closes none. -/
theorem find_opening_eq_none {front : List Op} (h : openPositions front = []) (rest : List Op) :
    (partners (front ++ .loopClose :: rest)).find? (fun pair => pair.2 == front.length) = none := by
  rw [partners_append, h, List.find?_append, partners, find_snd_eq_none (by omega)]
  change (partnersFrom (front.length + 1) [] rest).find? _ = none
  exact find_snd_eq_none (by omega)

/-- The bracket that closes an opening bracket follows the balanced operations behind it. -/
theorem find_closing {body : List Op} (h : Balanced body) (front rest : List Op) :
    (partners (front ++ .loopOpen :: (body ++ .loopClose :: rest))).find?
        (fun pair => pair.1 == front.length)
      = some (front.length, front.length + 1 + body.length) := by
  rw [partners_append, List.find?_append, partners, find_fst_eq_none (by simp) (by omega)]
  change (partnersFrom (front.length + 1) (front.length :: (openPositions front).reverse)
    (body ++ .loopClose :: rest)).find? _ = _
  rw [partnersFrom_append, partnersFrom_of_depth h, openFrom_of_balanced h, List.find?_append,
    find_fst_eq_none (by simp) (by omega)]
  simp [partnersFrom]

/-- An opening bracket that is not closed by what follows has no partner. -/
theorem find_closing_eq_none {final : Nat} {rest : List Op} (h : depthFrom 0 rest = some final)
    (front : List Op) :
    (partners (front ++ .loopOpen :: rest)).find? (fun pair => pair.1 == front.length) = none := by
  rw [partners_append, List.find?_append, partners, find_fst_eq_none (by simp) (by omega)]
  change (partnersFrom (front.length + 1) (front.length :: (openPositions front).reverse)
    rest).find? _ = none
  rw [partnersFrom_of_depth h]
  exact find_fst_eq_none (by simp) (by omega)

end TapeMachine.Brackets
