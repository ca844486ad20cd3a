import TapeMachine.Proofs.Machine.Output
import TapeMachine.Proofs.Machine.Place

/-!
# Machines that come to the same

Two machines are equivalent if one halts exactly if the other does, and then with the same fault and
the same data, and if both put out the same bytes, whether they halt or not. How they halt is told by
their last steps, and so by the runs that are made of them. They may take different numbers of steps:
it suffices to relate them again and again, after one step or more of each.
-/

namespace TapeMachine

namespace Machine

/-- The bytes that a machine has put out. -/
def output (m : Machine) : List UInt8 := m.sink.bytes.toList

variable {m m' : Machine} {related : Machine → Machine → Prop}
  {same : Option Fault → Option Fault → Prop} {count : Nat}

theorem output_of_data (h : m.data = m'.data) : m.output = m'.output :=
  congrArg (fun data => data.sink.bytes.toList) h

/-- What has been put out stays put out. -/
theorem isPrefix_output_step (m : Machine) : m.output <+: m.step.machine.output := by
  rw [output, output, sink_step]
  split
  · exact Sink.isPrefix_bytes_put m.tape.current m.sink
  · exact List.prefix_rfl

theorem isPrefix_output_after {later : Nat} (h : count ≤ later) (m : Machine) :
    (m.after count).output <+: (m.after later).output := by
  induction h with
  | refl => exact List.prefix_rfl
  | step h ih =>
    rw [after_succ_eq_step]
    exact ih.trans (isPrefix_output_step _)

/-- The next step of both machines is their last, and leaves them the same data. -/
structure EndTogether (same : Option Fault → Option Fault → Prop) (m m' : Machine) : Prop where
  halts : m.step.machine.mode = .halted
  halts' : m'.step.machine.mode = .halted
  data : m.step.machine.data = m'.step.machine.data
  fault : same m.step.fault m'.step.fault

/-- Related machines have the same data, and after one step or more of each they are related again,
unless both end. -/
structure Bisimulation (related : Machine → Machine → Prop)
    (same : Option Fault → Option Fault → Prop) : Prop where
  data : ∀ {m m'}, related m m' → m.data = m'.data
  goes : ∀ {m m'}, related m m' → m.mode ≠ .halted ∧ m'.mode ≠ .halted
  steps : ∀ {m m'}, related m m' →
    (∃ made made', related (m.after (made + 1)) (m'.after (made' + 1))) ∨ EndTogether same m m'

theorem EndTogether.flip (h : EndTogether same m m') : EndTogether (flip same) m' m :=
  ⟨h.halts', h.halts, h.data.symm, h.fault⟩

theorem Bisimulation.flip (h : Bisimulation related same) :
    Bisimulation (flip related) (flip same) where
  data hrel := (h.data hrel).symm
  goes hrel := (h.goes hrel).symm
  steps hrel := by
    rcases h.steps hrel with ⟨made, made', hnext⟩ | hend
    · exact Or.inl ⟨made', made, hnext⟩
    · exact Or.inr hend.flip

/-- If the one machine halts, both come to their last step together. -/
theorem Bisimulation.ends (h : Bisimulation related same) (hrel : related m m')
    (hhalted : (m.after count).mode = .halted) :
    ∃ last last', related (m.after last) (m'.after last') ∧
      EndTogether same (m.after last) (m'.after last') := by
  -- The machines are related after several steps, so the induction is on the steps that are left.
  induction count using Nat.strongRecOn generalizing m m' with
  | ind count ih =>
    rcases h.steps hrel with ⟨made, made', hnext⟩ | hend
    · have hlt := lt_of_halted (h.goes hnext).1 hhalted
      rw [← Nat.add_sub_of_le (Nat.le_of_lt hlt), after_add] at hhalted
      obtain ⟨last, last', hlast, hend⟩ := ih (count - (made + 1)) (by omega) hnext hhalted
      rw [← after_add, ← after_add] at hlast hend
      exact ⟨_, _, hlast, hend⟩
    · exact ⟨0, 0, hrel, hend⟩

/-- What the one machine has put out the other puts out as well. -/
theorem Bisimulation.output (h : Bisimulation related same) (hrel : related m m') (count : Nat) :
    ∃ count', (m.after count).output <+: (m'.after count').output := by
  induction count using Nat.strongRecOn generalizing m m' with
  | ind count ih =>
    rcases h.steps hrel with ⟨made, made', hnext⟩ | hend
    · by_cases hle : count ≤ made + 1
      · refine ⟨made' + 1, ?_⟩
        rw [← output_of_data (h.data hnext)]
        exact isPrefix_output_after hle m
      · obtain ⟨count', hprefix⟩ := ih (count - (made + 1)) (by omega) hnext
        rw [← after_add, ← after_add, Nat.add_sub_of_le (by omega)] at hprefix
        exact ⟨_, hprefix⟩
    · refine ⟨1, ?_⟩
      rw [after_succ, after_zero, ← output_of_data hend.data, ← after_of_halted hend.halts count,
        ← after_succ]
      exact isPrefix_output_after (Nat.le_succ count) m

/-- The faults are the same, but for the places of unmatched brackets. -/
def Relocated (place : Nat → Nat) (fault fault' : Option Fault) : Prop :=
  fault' = fault.map (Fault.relocate place)

/-- The machine goes on up to a step, and that step halts it. -/
structure HaltsAt (m : Machine) (last : Nat) : Prop where
  goes : (m.after last).mode ≠ .halted
  halts : (m.after last).step.machine.mode = .halted

theorem HaltsAt.halted {last : Nat} (h : m.HaltsAt last) : (m.after (last + 1)).mode = .halted := by
  rw [after_succ_eq_step]
  exact h.halts

theorem HaltsAt.unique {last last' : Nat} (h : m.HaltsAt last) (h' : m.HaltsAt last') :
    last = last' := by
  have hlt := lt_of_halted h.goes h'.halted
  have hlt' := lt_of_halted h'.goes h.halted
  omega

/-- The machines come to the same, but for the places of unmatched brackets. -/
structure Equivalent (place : Nat → Nat) (m m' : Machine) : Prop where
  halts : (∃ count, (m.after count).mode = .halted) ↔ ∃ count, (m'.after count).mode = .halted
  /-- The steps that halt the machines have the same outcome. -/
  lastSteps : ∀ {last last'}, m.HaltsAt last → m'.HaltsAt last' →
    Relocated place (m.after last).step.fault (m'.after last').step.fault ∧
      (m'.after last').step.machine.data = (m.after last).step.machine.data
  /-- Runs that are over have the same outcome. -/
  ends : ∀ {fuel fuel' r r'}, m.run fuel = some r → m'.run fuel' = some r' →
    Relocated place r.fault r'.fault ∧ r'.machine.data = r.machine.data
  outputs : ∀ bytes : List UInt8,
    (∃ count, bytes <+: (m.after count).output) ↔ ∃ count, bytes <+: (m'.after count).output

/-- If the second machine is behind, it is so for steps that show nothing. -/
theorem Bisimulation.lastSteps {place : Nat → Nat} (h : Bisimulation related (Relocated place))
    {start last last' : Nat} (hrel : related m (m'.after start)) (hlast : m.HaltsAt last)
    (hlast' : m'.HaltsAt last') :
    Relocated place (m.after last).step.fault (m'.after last').step.fault ∧
      (m'.after last').step.machine.data = (m.after last).step.machine.data := by
  obtain ⟨first, second, hrelated, hend⟩ := h.ends hrel hlast.halted
  obtain rfl : last = first := hlast.unique ⟨(h.goes hrelated).1, hend.halts⟩
  rw [← after_add] at hrelated hend
  obtain rfl : last' = start + second := hlast'.unique ⟨(h.goes hrelated).2, hend.halts'⟩
  exact ⟨hend.fault, hend.data.symm⟩

/-- It suffices that the machines are related once the second one has made some steps that show
nothing. -/
theorem Bisimulation.equivalent {place : Nat → Nat}
    (h : Bisimulation related (Relocated place)) (start : Nat)
    (hrel : related m (m'.after start)) : Equivalent place m m' where
  halts := by
    constructor
    · rintro ⟨count, hhalted⟩
      obtain ⟨_, last', -, hend⟩ := h.ends hrel hhalted
      refine ⟨start + last' + 1, ?_⟩
      rw [after_succ_eq_step, after_add]
      exact hend.halts'
    · rintro ⟨count, hhalted⟩
      have hlater : ((m'.after start).after count).mode = .halted := by
        rw [← after_add, after_of_halted_le hhalted (Nat.le_add_left count start)]
        exact hhalted
      obtain ⟨_, last, -, hend⟩ := h.flip.ends hrel hlater
      refine ⟨last + 1, ?_⟩
      rw [after_succ_eq_step]
      exact hend.halts'
  lastSteps := h.lastSteps hrel
  ends := by
    intro fuel fuel' r r' hr hr'
    have hgoes : m'.mode ≠ .halted := fun hhalted => (h.goes hrel).2 <| by
      rw [after_of_halted hhalted, hhalted]
    obtain ⟨last, -, hbefore, hhalts, hmachine, hfault⟩ :=
      exists_halting_of_run (h.goes hrel).1 hr
    obtain ⟨last', -, hbefore', hhalts', hmachine', hfault'⟩ := exists_halting_of_run hgoes hr'
    rw [hmachine, hmachine', hfault, hfault']
    exact h.lastSteps hrel ⟨hbefore, hhalts⟩ ⟨hbefore', hhalts'⟩
  outputs := by
    intro bytes
    constructor
    · rintro ⟨count, hbytes⟩
      obtain ⟨count', hprefix⟩ := h.output hrel count
      rw [← after_add] at hprefix
      exact ⟨_, hbytes.trans hprefix⟩
    · rintro ⟨count, hbytes⟩
      obtain ⟨count', hprefix⟩ := h.flip.output hrel count
      rw [← after_add] at hprefix
      refine ⟨count', hbytes.trans (List.IsPrefix.trans ?_ hprefix)⟩
      exact isPrefix_output_after (Nat.le_add_left count start) m'

end Machine

end TapeMachine
