import TapeMachine.Proofs.Loops.InsertedLoop

/-!
# Unfolding a loop

A loop can be put once more at the end of its own body. On a zero cell the inner loop is passed over
and the outer one left, as before; on another cell the inner loop repeats the body in place of the
outer one, until it is left together with the outer one.
-/

namespace TapeMachine.Machine

open Brackets Listing

/-- A loop has been entered behind some operations, and so much of its body has been passed. -/
def entered (outside covered : List Op) : List Op := outside ++ .loopOpen :: covered

/-- The first machine is in the loop and the second one in the loop inside it, both at the same
place of the body. What they skip was opened in the body. -/
def Repeats (text text' : List UInt8) (outside body : List Op) (m m' : Machine) : Prop :=
  ∃ covered rest depth final, body = covered ++ rest ∧ depthFrom 0 covered = some final ∧
    depth ≤ final ∧
    Alike text text' (entered outside covered) (entered (entered outside body) covered) depth m m'

variable {place : Nat → Nat} {text text' : List UInt8} {outside body behind covered : List Op}
  {depth : Nat} {m m' : Machine}

theorem entered_concat (outside covered : List Op) (op : Op) :
    entered outside (covered ++ [op]) = entered outside covered ++ [op] := by
  simp [entered]

theorem openPositions_entered {final : Nat} (outside : List Op)
    (h : depthFrom 0 covered = some final) : openPositions (entered outside covered)
      = openPositions outside ++ outside.length ::
          (openPositions covered).map (outside.length + 1 + ·) := by
  rw [entered, ← List.singleton_append, ← List.append_assoc, openPositions_append_of_depth _ h,
    openPositions_concat_open, List.append_assoc, List.singleton_append, List.length_append,
    List.length_singleton]

theorem openPositions_entered_body (outside : List Op) (h : Balanced body) :
    openPositions (entered outside body) = openPositions outside ++ [outside.length] := by
  rw [openPositions_entered outside h, openPositions_eq_nil h]
  rfl

/-- A bracket that is open in the body is found there, whatever stands in front of the loop. -/
theorem take_entered {below inner : List Nat} {opening inside final : Nat} (outside : List Op)
    (h : depthFrom 0 covered = some final) (hinner : openPositions covered = inner ++ [inside])
    (hopen : openPositions (entered outside covered) = below ++ [opening]) :
    (entered outside covered).take opening = entered outside (covered.take inside) := by
  have hinnermost := openPositions_entered outside h
  rw [hinner, List.map_append, List.map_singleton, ← List.cons_append, ← List.append_assoc]
    at hinnermost
  obtain rfl := innermost_unique hinnermost hopen
  rw [entered, Nat.add_assoc, List.take_length_add_append, Nat.add_comm 1, List.take_succ_cons]
  rfl

/-- An operation in a body changes its depth at least as much as that at which it is skipped. -/
theorem depthAfter_le {op : Op} {final final' : Nat} (h : depthFrom final [op] = some final')
    (hle : depth ≤ final) : depthAfter depth op ≤ final' := by
  cases op using bracketCases with
  | opening =>
    obtain rfl := Option.some.inj h
    exact Nat.succ_le_succ hle
  | closing =>
    cases final with
    | zero => simp [depthFrom] at h
    | succ final =>
      obtain rfl := Option.some.inj h
      exact Nat.sub_le_of_le_add hle
  | plain op hp =>
    rw [depthFrom_plain hp] at h
    obtain rfl := Option.some.inj h
    rw [depthAfter_plain hp]
    exact hle

/-- After a jump inside the body the machines are again at the same place of it. -/
theorem repeats_of_jump {rest : List Op} {final final' : Nat}
    (hbody : body = covered ++ .loopClose :: rest) (hdepth : depthFrom 0 covered = some final)
    (hfinal : depthFrom final [.loopClose] = some final')
    (h : Alike.Jump text text' (entered outside covered)
      (entered (entered outside body) covered) .loopClose m m') :
    Repeats text text' outside body m.step.machine m'.step.machine := by
  obtain ⟨-, -, below, below', opening, opening', hopen, hopen', ha⟩ := h
  rcases List.eq_nil_or_concat (openPositions covered) with hnil | ⟨inner, inside, hinner⟩
  · -- The bracket would be unmatched in the body.
    have hlength := length_openPositions hdepth
    rw [hnil] at hlength
    obtain rfl : 0 = final := hlength
    simp [depthFrom] at hfinal
  rw [List.concat_eq_append] at hinner
  rw [take_entered _ hdepth hinner hopen, take_entered _ hdepth hinner hopen'] at ha
  rw [← List.take_append_drop inside covered] at hdepth hbody
  obtain ⟨between, hbetween, -⟩ := depthFrom_of_append hdepth
  rw [List.append_assoc] at hbody
  exact ⟨covered.take inside, _, 0, between, hbody, hbetween, Nat.zero_le _, ha⟩

section Steps

variable (hi : Inserts place text text' (entered outside body) body (.loopClose :: behind))

include hi

/-- In the body the same operation comes next in both texts. -/
theorem Inserts.next_inside {op : Op} {rest : List Op} (hbody : body = covered ++ op :: rest) :
    (∃ rest', operations text = entered outside covered ++ op :: rest') ∧
      ∃ rest', operations text' = entered (entered outside body) covered ++ op :: rest' := by
  refine ⟨⟨rest ++ .loopClose :: behind, ?_⟩, rest ++ .loopClose :: .loopClose :: behind, ?_⟩
  · rw [hi.without, hbody]
    simp [entered]
  · -- The outer loop keeps its body, so only the inner one is taken apart.
    have hinner : enclose body ++ .loopClose :: behind
        = entered [] covered ++ op :: (rest ++ .loopClose :: .loopClose :: behind) := by
      rw [enclose, hbody]
      simp [entered]
    rw [hi.inserted, hinner]
    simp [entered]

/-- In the body both machines do the same. -/
theorem Inserts.repeats_step (h : Repeats text text' outside body m m') :
    Repeats text text' outside body m.step.machine m'.step.machine ∨
      Alike text text' (entered outside body) (entered (entered outside body) body) 0 m m' ∨
        EndTogether (Relocated place) m m' := by
  obtain ⟨covered, rest, depth, final, hbody, hdepth, hle, ha⟩ := h
  have hbalanced := hi.balanced
  cases rest with
  | nil =>
    rw [List.append_nil] at hbody
    subst hbody
    obtain rfl : 0 = final := Option.some.inj (hbalanced.symm.trans hdepth)
    obtain rfl := Nat.eq_zero_of_le_zero hle
    exact Or.inr (Or.inl ha)
  | cons op rest =>
    rw [Brackets.Balanced, hbody, depthFrom_append_of_eq hdepth, ← List.singleton_append] at hbalanced
    obtain ⟨final', hfinal, -⟩ := depthFrom_of_append hbalanced
    obtain ⟨⟨_, hnext⟩, _, hnext'⟩ := hi.next_inside hbody
    have hopen : openPositions (entered outside covered) = [] ↔
        openPositions (entered (entered outside body) covered) = [] := by
      rw [openPositions_entered _ hdepth, openPositions_entered _ hdepth]
      simp
    rcases ha.step hnext hnext' hi.relocates hopen with ⟨depth', hle', hpass, -⟩ | hjump | hend
    · refine Or.inl ⟨covered ++ [op], rest, depth', final', ?_, ?_,
        hle'.trans (depthAfter_le hfinal hle), ?_⟩
      · rw [hbody, List.append_assoc]
        rfl
      · rw [depthFrom_append_of_eq hdepth, hfinal]
      · rw [entered_concat, entered_concat]
        exact hpass
    · obtain rfl := hjump.1
      exact Or.inl (repeats_of_jump hbody hdepth hfinal hjump)
    · exact Or.inr (Or.inr hend)

/-- On a cell that is not zero the one machine enters the loop, and the other one the loop inside
it. -/
theorem Inserts.repeats_start (h : Alike text text' outside (entered outside body) 0 m m')
    (hcell : m.tape.current ≠ 0) :
    Repeats text text' outside body m.step.machine m'.step.machine := by
  have hnext : operations text = outside ++ .loopOpen :: (body ++ .loopClose :: behind) := by
    rw [hi.without]
    simp [entered]
  have hnext' : operations text' = entered outside body
      ++ .loopOpen :: (body ++ .loopClose :: .loopClose :: behind) := by
    rw [hi.inserted]
    simp [enclose]
  have henters := h.enter hnext hnext'
  rw [if_neg hcell] at henters
  exact ⟨[], body, 0, 0, rfl, rfl, Nat.le_refl 0, henters⟩

/-- At the end of the body both machines leave the loop, or both begin it once more. -/
theorem Inserts.leaves_or_repeats
    (h : Alike text text' (entered outside body) (entered (entered outside body) body) 0 m m') :
    Tracks text text' (entered outside body) (enclose body) m.step.machine
        m'.step.machine.step.machine ∨
      Repeats text text' outside body m.step.machine.step.machine
        m'.step.machine.step.machine := by
  have hopen := openPositions_entered_body outside hi.balanced
  have hopen' := openPositions_entered_body (entered outside body) hi.balanced
  have hnext' : operations text'
      = entered (entered outside body) body ++ .loopClose :: .loopClose :: behind := by
    rw [hi.inserted]
    simp [entered, enclose]
  rcases h.close hi.without hnext' hopen hopen' with
    ⟨depth', hle, hpass, hcell⟩ | ⟨-, hcell, _, _, opening, opening', hfirst, hsecond, hjump⟩
  · obtain rfl : depth' = 0 := Nat.eq_zero_of_le_zero hle
    have hinner : entered (entered outside body) body ++ [.loopClose]
        = entered outside body ++ enclose body := by
      simp [entered, enclose]
    have hafter : openPositions (entered outside body ++ enclose body)
        = openPositions outside ++ [outside.length] := by
      rw [openPositions_append_balanced _ hi.balanced.enclose, hopen]
    rw [hinner] at hpass
    have hzero := hcell rfl
    obtain ⟨hleaves, hdata⟩ :=
      hpass.second.closes (by rw [hi.inserted, List.append_assoc]) hafter
    rw [if_pos (hpass.cell_iff.mpr hzero)] at hleaves
    exact Or.inl ⟨_, _, 0, .behind [.loopClose], hpass.first, hleaves, hpass.data.trans hdata.symm⟩
  · obtain rfl := innermost_unique hopen hfirst
    obtain rfl := innermost_unique hopen' hsecond
    have hback : (entered outside body).take outside.length = outside := List.take_left
    have hback' : (entered (entered outside body) body).take (entered outside body).length
        = entered outside body := List.take_left
    rw [hback, hback'] at hjump
    exact Or.inr (hi.repeats_start hjump hcell)

/-- In front of the inner loop the first machine goes back to the outer one. -/
theorem Inserts.begins
    (h : Alike text text' (entered outside body) (entered outside body) depth m m')
    (hcell : m.tape.current ≠ 0) :
    Repeats text text' outside body m.step.machine.step.machine m'.step.machine := by
  obtain rfl : depth = 0 := by
    by_contra hdepth
    exact hcell (h.first.cell hdepth)
  obtain ⟨hback, hdata⟩ :=
    h.first.closes hi.without (openPositions_entered_body outside hi.balanced)
  have htake : (entered outside body).take outside.length = outside := List.take_left
  rw [if_neg hcell, htake] at hback
  refine hi.repeats_start ⟨hback, h.second, hdata.trans h.data⟩ ?_
  rwa [tape_of_data hdata]

theorem Inserts.bisimulation_unfolded : Bisimulation (fun m m' =>
    Tracks text text' (entered outside body) (enclose body) m m' ∨
      Repeats text text' outside body m m') (Relocated place) where
  data := by
    rintro m m' (htracks | ⟨_, _, _, _, -, -, -, ha⟩)
    · exact htracks.data
    · exact ha.data
  goes := by
    rintro m m' (htracks | ⟨_, _, _, _, -, -, -, ha⟩)
    · exact htracks.goes
    · exact ⟨ha.first.goes, ha.second.goes⟩
  steps := by
    rintro m m' (htracks | hrepeats)
    · rcases hi.step htracks with hnext | ⟨_, _, depth, -, ha, -⟩ | hend
      · exact Or.inl ⟨0, 0, Or.inl hnext⟩
      · by_cases hcell : m.step.machine.tape.current = 0
        · obtain ⟨count, hnext⟩ := hi.arrives ha hcell
          exact Or.inl ⟨0, count, Or.inl hnext⟩
        · exact Or.inl ⟨2, 1, Or.inr (hi.begins ha hcell)⟩
      · exact Or.inr hend
    · rcases hi.repeats_step hrepeats with hnext | hatEnd | hend
      · exact Or.inl ⟨0, 0, Or.inr hnext⟩
      · rcases hi.leaves_or_repeats hatEnd with hleft | hagain
        · exact Or.inl ⟨0, 1, Or.inl hleft⟩
        · exact Or.inl ⟨1, 1, Or.inr hagain⟩
      · exact Or.inr hend

end Steps

theorem operations_entered (first body : List UInt8) :
    operations (first ++ Op.loopOpen.byte :: body)
      = entered (operations first) (operations body) :=
  operations_append first (Op.loopOpen.byte :: body)

theorem inserts_unfolded (first last : List UInt8) {body : List UInt8}
    (h : Balanced (operations body)) :
    Inserts (moved (first.length + (body.length + 2)) (body.length + 2))
      (first ++ (looped body ++ last)) (first ++ (looped (body ++ looped body) ++ last))
      (entered (operations first) (operations body)) (operations body)
      (.loopClose :: operations last) := by
  have hi := inserts_looped (first ++ Op.loopOpen.byte :: body) (Op.loopClose.byte :: last) h
  have htext : first ++ Op.loopOpen.byte :: body ++ Op.loopClose.byte :: last
      = first ++ (looped body ++ last) := by
    simp [looped]
  have htext' : first ++ Op.loopOpen.byte :: body ++ (looped body ++ Op.loopClose.byte :: last)
      = first ++ (looped (body ++ looped body) ++ last) := by
    simp [looped]
  rw [operations_entered, htext, htext'] at hi
  refine ⟨hi.without, hi.inserted, hi.balanced, fun {offset offset'} hoffset hoffset' => ?_⟩
  have hlength := length_looped body
  have hmoved := hi.relocates hoffset hoffset'
  rw [List.length_append, List.length_cons] at hmoved
  rw [hmoved]
  -- The bracket is not one of the loop, so it is in front of both places or behind them.
  rcases hoffset.outside (balanced_looped h) with hlt | hle
  · rw [moved_of_lt _ (by omega), moved_of_lt _ (by omega)]
  · rw [moved_of_le _ (by omega), moved_of_le _ (by omega)]

/-- A loop comes to the same if it is put once more at the end of its own body. -/
theorem equivalent_unfold (config : Config) (first body last : List UInt8)
    (input : List ReadEvent) (sink : Sink) (hbody : Balanced (operations body)) :
    Equivalent (moved (first.length + (body.length + 2)) (body.length + 2))
      (initial config ((first ++ (looped body ++ last)).map .byte) input sink)
      (initial config ((first ++ (looped (body ++ looped body) ++ last)).map .byte) input sink) := by
  have hi := inserts_unfolded first last hbody
  have hbefore : Corresponds (entered (operations first) (operations body))
      (enclose (operations body)) [] [] := .before (by
        rw [entered, List.length_append, List.length_cons, List.length_nil]
        omega)
  exact hi.bisimulation_unfolded.equivalent 0
    (Or.inl ⟨[], [], 0, hbefore, alike_initial config _ _ input sink⟩)

/-- The loop has another one in its body and stands in a loop itself. -/
theorem equivalent_unfold_nested :
    Balanced (operations [45, 62, 91, 93, 60]) ∧
      Equivalent (moved 10 7)
        (initial { tapeSize := 3 }
          (([43, 43, 91] ++ (looped [45, 62, 91, 93, 60] ++ [46, 93]) : List UInt8).map .byte) []
          .accepting)
        (initial { tapeSize := 3 }
          (([43, 43, 91] ++ (looped ([45, 62, 91, 93, 60] ++ looped [45, 62, 91, 93, 60])
            ++ [46, 93])).map .byte) []
          .accepting) :=
  ⟨by decide, equivalent_unfold { tapeSize := 3 } [43, 43, 91] [45, 62, 91, 93, 60] [46, 93] []
    .accepting (by decide)⟩

end TapeMachine.Machine
