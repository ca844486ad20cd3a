import TapeMachine.Proofs.Brackets.Partners

/-!
# Top-level loops

A loop stands at the top level if nothing is open before it. An operation belongs to such a loop if
nothing between its opening bracket and the operation closes it; so no operation belongs to two.
-/

namespace TapeMachine.Brackets

/-- A loop at the top level opens at `outer`, and the operation at `index` belongs to it, as its own
two brackets do. -/
structure TopLevelLoop (ops : List Op) (outer index : Nat) : Prop where
  opens : ops[outer]? = some .loopOpen
  balanced : Balanced (ops.take outer)
  le : outer ≤ index
  inside : ∀ place, outer < place → place ≤ index → ¬Balanced (ops.take place)

variable {ops : List Op} {outer outer' index : Nat}

theorem TopLevelLoop.unique (h : TopLevelLoop ops outer index)
    (h' : TopLevelLoop ops outer' index) : outer = outer' := by
  rcases Nat.lt_trichotomy outer outer' with hlt | heq | hlt
  · exact absurd h'.balanced (h.inside outer' hlt h'.le)
  · exact heq
  · exact absurd h.balanced (h'.inside outer hlt h.le)

/-- Before the bracket that closes the loop, the one that opens it is all that is left open. -/
theorem TopLevelLoop.openPositions_eq (h : TopLevelLoop ops outer index)
    (hdepth : depthFrom 0 (ops.take index) = some 1) :
    openPositions (ops.take index) = [outer] := by
  obtain ⟨opening, hopening⟩ := List.length_eq_one_iff.mp (length_openPositions hdepth)
  have hlt : outer < ops.length := (List.getElem?_eq_some_iff.mp h.opens).1
  have hsplit := List.take_append_drop outer (ops.take index)
  rw [List.take_take, Nat.min_eq_left h.le] at hsplit
  have hle : outer ≤ opening := by
    have hrest := hopening
    rw [← hsplit, openPositions_append h.balanced] at hrest
    obtain ⟨place, -, hplace⟩ := List.mem_map.mp (hrest ▸ List.mem_singleton_self opening)
    rw [List.length_take] at hplace
    omega
  obtain ⟨hwithin, -, hbefore⟩ := @openPositions_split _ [] [] _ hopening
  rw [List.length_take] at hwithin
  -- Nothing is open before the bracket that is, so it stands at the top level.
  have hbalanced : Balanced (ops.take opening) := by
    have hprefix := List.take_append_drop opening (ops.take index)
    rw [List.take_take, Nat.min_eq_left (by omega)] at hprefix hbefore
    rw [← hprefix] at hdepth
    obtain ⟨between, hbetween, -⟩ := depthFrom_of_append hdepth
    have hlength := length_openPositions hbetween
    rw [hbefore] at hlength
    rw [Balanced, hbetween, ← hlength]
    rfl
  rcases Nat.eq_or_lt_of_le hle with rfl | hinside
  · exact hopening
  · exact absurd hbalanced (h.inside opening hinside (by omega))

/-- The bracket that closes the loop is the partner of the one that opens it. -/
theorem TopLevelLoop.mem_partners (h : TopLevelLoop ops outer index)
    (hclose : ops[index]? = some .loopClose) (hbalanced : Balanced (ops.take (index + 1))) :
    (outer, index) ∈ partners ops := by
  obtain ⟨hlt, hget⟩ := List.getElem?_eq_some_iff.mp hclose
  have hlength : (ops.take index).length = index := List.length_take_of_le (Nat.le_of_lt hlt)
  have hdepth : depthFrom 0 (ops.take index) = some 1 := by
    rw [Balanced, List.take_succ_eq_append_getElem hlt, hget] at hbalanced
    obtain ⟨between, hbetween, hclosed⟩ := depthFrom_of_append hbalanced
    cases between with
    | zero => simp [depthFrom] at hclosed
    | succ between =>
      obtain rfl : between = 0 := Option.some.inj hclosed
      exact hbetween
  have hpartner := @find_opening _ [] _ (h.openPositions_eq hdepth) (ops.drop (index + 1))
  rw [← hget, ← List.drop_eq_getElem_cons hlt, List.take_append_drop, hlength] at hpartner
  exact List.mem_of_find?_eq_some hpartner

end TapeMachine.Brackets
