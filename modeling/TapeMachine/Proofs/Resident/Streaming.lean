import TapeMachine.Proofs.Resident.Jumps

/-!
# Streaming execution

A machine that reads a text as a stream halts exactly if the evaluator that holds the text in memory
stops, and then they have come to the same end. Each operation of the evaluator is one step of the
machine up to the operations that are passed over, and a jump back counts twice, because the opening
bracket is executed again.
-/

namespace TapeMachine

/-- The states in which a run executes an operation. -/
def Resident.executed : Nat → Resident → List Resident
  | 0, _ => []
  | fuel + 1, r =>
    match r.step with
    | .next r' => r :: executed fuel r'
    | .stop _ none => []
    | .stop _ (some _) => [r]

namespace Machine

open Brackets Listing

variable {text : List UInt8} {m : Machine} {r r' : Resident} {fault : Option Fault}

/-- An evaluator that jumps back does not stop. -/
theorem jumpsBack_of_stop (h : r.step = .stop r' fault) : r.jumpsBack = false := by
  unfold Resident.jumpsBack
  split
  · next offset hop =>
    rw [Resident.step, hop] at h
    dsimp only at h
    rw [Resident.closeLoop] at h
    cases hopening : r.listing.opening? r.position with
    | none => rfl
    | some opening =>
      rw [hopening] at h
      dsimp only at h
      split at h <;> simp [Resident.advance, Resident.goto] at h
  · rfl

/-- Whatever comes next, the machine does what the evaluator does. -/
theorem Mirrors.step (h : Mirrors text m r) : Matches text m r := by
  obtain ⟨read, before, depth, hf, hposition, hdepth⟩ := h.follows
  obtain ⟨rest, hrest⟩ := isPrefix_passed hf.reads hf.delivered_eq
  rw [delivered_bytes] at hrest
  cases rest with
  | nil =>
    rw [List.append_nil] at hrest
    exact Or.inr ⟨r, none, h.finishes hf hrest.symm hposition⟩
  | cons op rest =>
    obtain rfl : depth = 0 := by
      rcases hdepth with hzero | hall
      · exact hzero
      · rw [hall] at hrest
        simp at hrest
    have ha : Faces text read before op rest m r := ⟨hf, hposition, hrest.symm⟩
    cases op using bracketCases with
    | opening => exact h.opening ha
    | closing => exact h.closing ha
    | plain op hp => exact h.plain ha hp

/-- A run of the evaluator is a run of the machine. -/
theorem Mirrors.run {fuel : Nat} (h : Mirrors text m r) (hrun : r.run fuel = some (r', fault)) :
    ∃ last, Finishes text (m.after last) r' fault ∧ (m.after last).step.machine.steps
      = m.steps + (r.executed fuel).length + (r.executed fuel).countP Resident.jumpsBack := by
  induction fuel generalizing m r with
  | zero => simp [Resident.run] at hrun
  | succ fuel ih =>
    rcases h.step with ⟨next, count, hr, hmirrors, hsteps⟩ | ⟨last, outcome, hr, hfinishes⟩
    · rw [Resident.run, hr] at hrun
      obtain ⟨last, hfinishes, hlast⟩ := ih hmirrors hrun
      rw [← after_add] at hfinishes hlast
      refine ⟨count + 1 + last, hfinishes, ?_⟩
      rw [hlast, hsteps, Resident.executed, hr, List.length_cons, List.countP_cons]
      cases r.jumpsBack <;> simp <;> omega
    · rw [Resident.run, hr, Option.some.injEq, Prod.mk.injEq] at hrun
      obtain ⟨rfl, rfl⟩ := hrun
      refine ⟨0, hfinishes, ?_⟩
      rw [after_zero, hfinishes.steps, Resident.executed, hr]
      cases outcome with
      | none => rfl
      | some fault => simp [jumpsBack_of_stop hr]

/-- If the machine halts the evaluator stops. -/
theorem Mirrors.run_of_halted {count : Nat} (h : Mirrors text m r)
    (hhalted : (m.after count).mode = .halted) : ∃ fuel answer, r.run fuel = some answer := by
  -- One operation of the evaluator takes any number of steps, so the induction is on what is left.
  induction count using Nat.strongRecOn generalizing m r with
  | ind count ih =>
    rcases h.step with ⟨next, more, hr, hmirrors, -⟩ | ⟨last, outcome, hr, -⟩
    · obtain ⟨_, _, _, hf, -⟩ := hmirrors.follows
      have hlt := lt_of_halted hf.toRepresents.mode_ne_halted hhalted
      rw [← Nat.add_sub_of_le (Nat.le_of_lt hlt), after_add] at hhalted
      obtain ⟨fuel, answer, hrun⟩ := ih (count - (more + 1)) (by omega) hmirrors hhalted
      refine ⟨fuel + 1, answer, ?_⟩
      rw [Resident.run, hr]
      exact hrun
    · refine ⟨1, (last, outcome), ?_⟩
      rw [Resident.run, hr]

theorem mirrors_initial (config : Config) (text : List UInt8) (input : List ReadEvent) :
    Mirrors text (initial config (text.map .byte) input .accepting)
      (.initial config text input) where
  agrees := ⟨rfl, rfl, rfl, rfl, rfl, rfl, rfl⟩
  listing := rfl
  follows := ⟨[], [], 0, follows_initial config (text.map .byte) input .accepting, rfl, Or.inl rfl⟩

/-- A run of a machine and a run of the evaluator have come to the same end. -/
structure SameEnd (text : List UInt8) (run : Run) (executed : List Resident) (r : Resident)
    (fault : Option Fault) : Prop where
  outcome : run.fault = fault
  output : run.machine.sink.bytes = r.output
  tape : run.machine.tape = r.tape
  input : run.machine.input = r.input
  outputBytes : run.machine.outputBytes = r.output.size
  /-- Each jump back executes the opening bracket again. -/
  steps : run.machine.steps = executed.length + executed.countP Resident.jumpsBack
  ended : fault = none → run.machine.source.offset = text.length ∧
    run.machine.unclosedLoops + closings text = openings text

theorem Finishes.sameEnd {start : Machine} {last count : Nat} {executed : List Resident}
    (h : Finishes text (start.after last) r fault) (hhalted : (start.after count).mode = .halted)
    (hsteps : (start.after last).step.machine.steps
      = executed.length + executed.countP Resident.jumpsBack) :
    SameEnd text (start.advance count #[]) executed r fault := by
  have hlt := lt_of_halted h.goes hhalted
  have hend := machine_advance_of_halted h.halts hlt #[]
  have hfault := fault_advance_of_halted h.goes h.halts hlt #[]
  refine ⟨hfault.trans h.outcome, ?_, ?_, ?_, ?_, ?_, ?_⟩
  · rw [hend, h.agrees.output]
  · rw [hend, h.agrees.tape]
  · rw [hend, h.agrees.input]
  · rw [hend, h.agrees.outputBytes]
  · rw [hend, hsteps]
  · rw [hend]
    exact h.ended

/-- Streaming execution is the execution of the whole program: the machine halts exactly if the
evaluator stops, and then both have come to the same end. -/
theorem advance_eq_run (config : Config) (text : List UInt8) (input : List ReadEvent) :
    ((∃ count, ((initial config (text.map .byte) input .accepting).after count).mode = .halted) ↔
        ∃ fuel answer, (Resident.initial config text input).run fuel = some answer) ∧
      ∀ count fuel r fault,
        ((initial config (text.map .byte) input .accepting).after count).mode = .halted →
        (Resident.initial config text input).run fuel = some (r, fault) →
          SameEnd text ((initial config (text.map .byte) input .accepting).advance count #[])
            ((Resident.initial config text input).executed fuel) r fault := by
  have hmirrors := mirrors_initial config text input
  refine ⟨⟨?_, ?_⟩, ?_⟩
  · rintro ⟨count, hhalted⟩
    exact hmirrors.run_of_halted hhalted
  · rintro ⟨fuel, ⟨r, fault⟩, hrun⟩
    obtain ⟨last, hfinishes, -⟩ := hmirrors.run hrun
    refine ⟨last + 1, ?_⟩
    rw [after_succ_eq_step]
    exact hfinishes.halts
  · intro count fuel r fault hhalted hrun
    obtain ⟨last, hfinishes, hsteps⟩ := hmirrors.run hrun
    refine hfinishes.sameEnd hhalted (hsteps.trans ?_)
    rw [show (initial config (text.map .byte) input .accepting).steps = 0 from rfl, Nat.zero_add]

/-- A loop is run through twice, and another is never closed. -/
theorem advance_eq_run_unclosed :
    ((initial { tapeSize := 3 } ([43, 43, 91, 46, 45, 93, 91, 62].map .byte) []
        .accepting).after 16).mode = .halted ∧
      ∃ r fault,
        (Resident.initial { tapeSize := 3 } [43, 43, 91, 46, 45, 93, 91, 62] []).run 16
            = some (r, fault) ∧
          SameEnd [43, 43, 91, 46, 45, 93, 91, 62]
            ((initial { tapeSize := 3 } ([43, 43, 91, 46, 45, 93, 91, 62].map .byte) []
              .accepting).advance 16 #[])
            ((Resident.initial { tapeSize := 3 } [43, 43, 91, 46, 45, 93, 91, 62] []).executed 16)
            r fault := by
  have hhalted : ((initial { tapeSize := 3 } ([43, 43, 91, 46, 45, 93, 91, 62].map .byte) []
      .accepting).after 16).mode = .halted := by decide
  obtain ⟨⟨r, fault⟩, hrun⟩ := Option.isSome_iff_exists.mp (by decide :
    ((Resident.initial { tapeSize := 3 } [43, 43, 91, 46, 45, 93, 91, 62] []).run 16).isSome = true)
  exact ⟨hhalted, r, fault, hrun, (advance_eq_run _ _ _).2 16 16 r fault hhalted hrun⟩

end Machine

end TapeMachine
