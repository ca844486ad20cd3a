import TapeMachine.Machine.Run

/-!
# The step that halts a machine

A machine goes on up to one step, and from that step on it stays as the step has left it. The
outcome of several steps is then that of the one.
-/

namespace TapeMachine.Machine

variable {m : Machine} {fault : Fault} {count last : Nat}

theorem after_succ_eq_step (count : Nat) (m : Machine) :
    m.after (count + 1) = (m.after count).step.machine :=
  after_add count 1 m

theorem mode_ne_halted_of_step (h : m.step.machine.mode ≠ .halted) : m.mode ≠ .halted := by
  intro hhalted
  rw [step_of_halted hhalted] at h
  exact h hhalted

theorem mode_ne_halted_of_fault (h : m.step.fault = some fault) : m.mode ≠ .halted := by
  intro hhalted
  simp [step_of_halted hhalted, Step.quiet] at h

/-- A step after which the machine goes on has not failed. -/
theorem fault_eq_none_of_goes (h : m.step.machine.mode ≠ .halted) : m.step.fault = none := by
  cases hfault : m.step.fault with
  | none => rfl
  | some fault => exact absurd (mode_of_fault hfault) h

/-- A machine that has halted did so in one of its steps. -/
theorem exists_halting_step (hgoes : m.mode ≠ .halted) (h : (m.after count).mode = .halted) :
    ∃ last < count, (m.after last).mode ≠ .halted ∧ (m.after last).step.machine.mode = .halted := by
  induction count with
  | zero => exact absurd h hgoes
  | succ count ih =>
    by_cases hbefore : (m.after count).mode = .halted
    · obtain ⟨last, hlt, hlast⟩ := ih hbefore
      exact ⟨last, Nat.lt_succ_of_lt hlt, hlast⟩
    · rw [after_succ_eq_step] at h
      exact ⟨count, Nat.lt_succ_self count, hbefore, h⟩

theorem after_of_halted_le {later : Nat} (h : (m.after count).mode = .halted)
    (hle : count ≤ later) : m.after later = m.after count := by
  rw [← Nat.add_sub_of_le hle, after_add, after_of_halted h]

theorem lt_of_halted (hgoes : (m.after last).mode ≠ .halted)
    (h : (m.after count).mode = .halted) : last < count := by
  rw [← Nat.not_le]
  intro hle
  rw [after_of_halted_le h hle] at hgoes
  exact hgoes h

theorem machine_advance_of_halted (hhalts : (m.after last).step.machine.mode = .halted)
    (hlt : last < count) (log : Array Event) :
    (m.advance count log).machine = (m.after last).step.machine := by
  rw [← after_succ_eq_step] at hhalts ⊢
  rw [machine_advance]
  exact after_of_halted_le hhalts hlt

/-- The fault of several steps is that of the step that halts the machine. -/
theorem fault_advance_of_halted (hgoes : (m.after last).mode ≠ .halted)
    (hhalts : (m.after last).step.machine.mode = .halted) (hlt : last < count)
    (log : Array Event) : (m.advance count log).fault = (m.after last).step.fault := by
  induction last generalizing m count log with
  | zero =>
    obtain ⟨count, rfl⟩ := Nat.exists_eq_add_one_of_ne_zero (by omega : count ≠ 0)
    rw [after_zero] at hhalts
    rw [advance, hhalts]
    rfl
  | succ last ih =>
    obtain ⟨count, rfl⟩ := Nat.exists_eq_add_one_of_ne_zero (by omega : count ≠ 0)
    rw [after_succ] at hgoes hhalts ⊢
    rw [advance]
    cases hmode : m.step.machine.mode with
    | halted =>
      rw [after_of_halted hmode] at hgoes
      exact absurd hmode hgoes
    | running | skipping depth => exact ih hgoes hhalts (by omega) _

theorem run_of_halted {fuel : Nat} (h : (m.after fuel).mode = .halted) :
    ∃ r, m.run fuel = some r ∧ r.machine = m.after fuel ∧
      r.fault = (m.advance fuel #[]).fault := by
  rw [← machine_advance fuel m #[]] at h ⊢
  unfold run
  dsimp only
  rw [h]
  cases hfault : (m.advance fuel #[]).fault with
  | none => exact ⟨_, rfl, rfl, rfl⟩
  | some fault => exact ⟨_, rfl, rfl, hfault⟩

theorem run_eq_none_iff {fuel : Nat} : m.run fuel = none ↔ (m.after fuel).mode ≠ .halted := by
  constructor
  · intro hnone hhalted
    obtain ⟨r, hr, -⟩ := run_of_halted hhalted
    rw [hnone] at hr
    simp at hr
  · rw [← machine_advance fuel m #[]]
    unfold run
    dsimp only
    intro hgoes
    split
    · exact absurd (by assumption) hgoes
    · exact absurd (by assumption) hgoes
    · rfl

theorem machine_run {fuel : Nat} {r : Run} (h : m.run fuel = some r) :
    r.machine = m.after fuel := by
  cases hmode : (m.after fuel).mode with
  | running | skipping depth =>
    rw [run_eq_none_iff.mpr (by simp [hmode])] at h
    simp at h
  | halted =>
    obtain ⟨r', hr', hmachine, -⟩ := run_of_halted hmode
    obtain rfl := Option.some.inj (h.symm.trans hr')
    exact hmachine

/-- The outcome of a run is that of the step that halts the machine. -/
theorem exists_run {fuel : Nat} (hgoes : (m.after last).mode ≠ .halted)
    (hhalts : (m.after last).step.machine.mode = .halted) (hlt : last < fuel) :
    ∃ r, m.run fuel = some r ∧ r.machine = (m.after last).step.machine ∧
      r.fault = (m.after last).step.fault := by
  have hmachine := machine_advance_of_halted hhalts hlt #[]
  rw [machine_advance] at hmachine
  obtain ⟨r, hr, hend, hfault⟩ := run_of_halted (hmachine ▸ hhalts)
  exact ⟨r, hr, hend.trans hmachine, hfault.trans (fault_advance_of_halted hgoes hhalts hlt #[])⟩

theorem exists_halting_of_run {fuel : Nat} {r : Run} (hgoes : m.mode ≠ .halted)
    (h : m.run fuel = some r) : ∃ last < fuel, (m.after last).mode ≠ .halted ∧
      (m.after last).step.machine.mode = .halted ∧
      r.machine = (m.after last).step.machine ∧ r.fault = (m.after last).step.fault := by
  cases hhalted : (m.after fuel).mode with
  | running | skipping depth =>
    rw [run_eq_none_iff.mpr (by simp [hhalted])] at h
    simp at h
  | halted =>
    obtain ⟨last, hlt, hbefore, hhalts⟩ := exists_halting_step hgoes hhalted
    obtain ⟨r', hr', hend, hfault⟩ := exists_run hbefore hhalts hlt
    obtain rfl := Option.some.inj (h.symm.trans hr')
    exact ⟨last, hlt, hbefore, hhalts, hend, hfault⟩

end TapeMachine.Machine
