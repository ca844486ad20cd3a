import TapeMachine.Proofs.Machine.Reports
import TapeMachine.Proofs.Machine.UnmatchedClose

/-!
# Unclosed loops

The number of loops that a machine reports as unclosed is a matter of the text: so many more
brackets are opened than closed in it. A machine comes to this number from the loops that it has
entered and the brackets that it is skipping, whatever it has run through or passed over before.
-/

namespace TapeMachine.Machine

open Brackets Listing

variable {program read : List ReadEvent} {before : List Op} {depth : Nat} {m : Machine}

/-- A machine that meets the end of its program counts the brackets left open in the text. -/
theorem Ends.unclosed_eq (he : Ends program before depth m) (h : Represents before depth m) :
    m.loops.depth + depth + closings (delivered program) = openings (delivered program) := by
  have hdepth := h.depth_eq
  rw [← he.passed_all] at hdepth
  exact (neverOverclosed_of_depth hdepth).2

/-- The report of a number of unclosed loops, if there are any. -/
def unclosedWarnings (unclosed : Nat) : List Record :=
  if unclosed = 0 then []
  else [⟨.warn, "streambf::engine", "program ended inside a loop",
    [("unclosed_loops", .number unclosed)]⟩]

theorem warnings_ended (unclosed : Nat) (m : Machine) :
    ((Step.ended unclosed m).events.filter Event.isWarning).map Event.record
      = unclosedWarnings unclosed := by
  unfold Step.ended unclosedWarnings
  split <;> rfl

/-- The machine that a program executed to its end leaves, with all that it has reported. -/
structure EndsText (program : List ReadEvent) (reports : List Event) (m : Machine) : Prop where
  exhausted : m.source.exhausted = true
  neverOverclosed : NeverOverclosed (delivered program)
  unclosedLoops : m.summary.unclosedLoops
    = openings (delivered program) - closings (delivered program)
  programBytes : m.summary.programBytes = (delivered program).length
  warnings : (reports.map Event.record).filter (fun record => record.severity = .warn)
    = unclosedWarnings m.summary.unclosedLoops

/-- A machine that halts without a fault has executed its text to the end. The loops that it reports
as unclosed, and warns of once if there are any, are the brackets that the text does not close. -/
theorem endsText_of_halts (config : Config) (program input : List ReadEvent) (sink : Sink)
    {count : Nat} (hgoes : ((initial config program input sink).after count).mode ≠ .halted)
    (hhalts : ((initial config program input sink).after (count + 1)).mode = .halted)
    (hfault : ((initial config program input sink).after count).step.fault = none) :
    ∀ later, count < later → EndsText program ((initial config program input sink).eventsOf later)
      ((initial config program input sink).after later) := by
  intro later hlater
  obtain ⟨read, before, depth, hf⟩ := followsAfter_of_mode config program input sink count hgoes
  rw [after_of_halted_le hhalts hlater, eventsOf_of_halted_le hhalts hlater]
  rw [after_succ_eq_step] at hhalts ⊢
  rcases hf.step_cases with ⟨-, _, _, _, hadvances⟩ | ⟨-, hends⟩ | ⟨fault, hsome, -⟩
  · exact absurd hhalts hadvances.follows.mode_ne_halted
  · obtain ⟨source, hended⟩ := hends.eq_ended
    have hunclosed := hends.unclosed_eq hf.toRepresents
    have hcount : ((initial config program input sink).after count).step.machine.unclosedLoops
        = ((initial config program input sink).after count).loops.depth + depth := by
      rw [hended]
      rfl
    refine ⟨hends.exhausted, hends.neverOverclosed hf.toRepresents, ?_, hends.offset, ?_⟩
    · change Machine.unclosedLoops _ = _
      omega
    · change _ = unclosedWarnings (Machine.unclosedLoops _)
      rw [List.filter_map, hcount, eventsOf_succ_eq_append]
      change List.map Event.record (List.filter Event.isWarning _) = _
      rw [List.filter_append, warnings_eventsOf hgoes, List.nil_append, hended, warnings_ended]
  · rw [hfault] at hsome
    simp at hsome

/-- One loop is entered and left open, a second one is skipped inside it, and a comment follows. -/
theorem endsText_of_two :
    ((initial { tapeSize := 3 } ([43, 91, 62, 91, 35].map .byte) [] .accepting).after 4).mode
        ≠ .halted ∧
      ((initial { tapeSize := 3 } ([43, 91, 62, 91, 35].map .byte) [] .accepting).after 5).mode
        = .halted ∧
      ((initial { tapeSize := 3 } ([43, 91, 62, 91, 35].map .byte) [] .accepting).after
        4).step.fault = none ∧
      EndsText ([43, 91, 62, 91, 35].map .byte)
        ((initial { tapeSize := 3 } ([43, 91, 62, 91, 35].map .byte) [] .accepting).eventsOf 5)
        ((initial { tapeSize := 3 } ([43, 91, 62, 91, 35].map .byte) [] .accepting).after 5) :=
  ⟨by decide, by decide, by decide,
    @endsText_of_halts { tapeSize := 3 } ([43, 91, 62, 91, 35].map .byte) [] .accepting 4
      (by decide) (by decide) (by decide) 5 (by decide)⟩

end TapeMachine.Machine
