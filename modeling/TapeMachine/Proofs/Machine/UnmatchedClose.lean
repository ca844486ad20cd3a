import TapeMachine.Proofs.Machine.Representation

/-!
# Unmatched closing brackets

The fault of an unmatched bracket is a property of the text: it names the first byte with which the
text has closed more brackets than it has opened, and nothing behind that byte has been read. A text
without such a byte never leads to the fault, and a text with one is never executed to its end.
-/

namespace TapeMachine.Machine

open Brackets Listing

variable {program read : List ReadEvent} {before : List Op} {depth : Nat} {m : Machine}

/-- The program of a machine that meets its end closes no bracket that it has not opened. -/
theorem Ends.neverOverclosed (he : Ends program before depth m) (h : Represents before depth m) :
    NeverOverclosed (delivered program) := by
  have hdepth := h.depth_eq
  rw [← he.passed_all] at hdepth
  exact (neverOverclosed_of_depth hdepth).1

/-- The bracket at which a step fails is the first unmatched one, and the last byte consumed. -/
theorem Overcloses.firstUnmatched {offset : Nat} (h : Overcloses program offset m) :
    (delivered program)[offset]? = some Op.loopClose.byte ∧
      FirstUnmatched (delivered program) offset := by
  obtain ⟨front, hflow, hbalanced, hprogram, hoffset⟩ := h.consumed
  have hdelivered : delivered program
      = delivered front ++ Op.loopClose.byte :: delivered m.source.events := by
    rw [hprogram, delivered_append hflow]
    rfl
  rw [hdelivered, hoffset]
  exact ⟨by simp, firstUnmatched_of_balanced hbalanced _⟩

/-- A step that fails at an unmatched bracket has found the first one of the text. -/
theorem overcloses_of_fault (config : Config) (program input : List ReadEvent) (sink : Sink)
    {count offset : Nat}
    (h : ((initial config program input sink).after count).step.fault
      = some (.unmatchedClose offset)) :
    Overcloses program offset ((initial config program input sink).after (count + 1)) := by
  obtain ⟨read, before, depth, hf⟩ := followsAfter_of_mode config program input sink count
    (mode_ne_halted_of_fault h)
  rw [after_succ_eq_step]
  rcases hf.step_cases with ⟨hnone, -⟩ | ⟨hnone, -⟩ | ⟨fault, hfault, hover⟩
  · rw [hnone] at h
    simp at h
  · rw [hnone] at h
    simp at h
  · rw [hfault] at h
    exact hover offset (Option.some.inj h)

/-- A machine that halts without a failing step has executed a text that never overcloses. -/
theorem neverOverclosed_of_halted (config : Config) (program input : List ReadEvent) (sink : Sink)
    {count : Nat} (h : ((initial config program input sink).after count).mode = .halted) :
    NeverOverclosed (delivered program) ∨
      ∃ failing < count, ((initial config program input sink).after failing).step.fault ≠ none := by
  obtain ⟨last, hlt, hgoes, hhalts⟩ := exists_halting_step (by simp [initial]) h
  obtain ⟨read, before, depth, hf⟩ := followsAfter_of_mode config program input sink last hgoes
  rcases hf.step_cases with ⟨-, read', before', depth', ha⟩ | ⟨-, hends⟩ | ⟨fault, hfault, -⟩
  · exact absurd hhalts ha.follows.mode_ne_halted
  · exact Or.inl (hends.neverOverclosed hf.toRepresents)
  · exact Or.inr ⟨last, hlt, by simp [hfault]⟩

/-- The fault of an unmatched bracket is that of the first unmatched bracket of the text: it is
reported there with nothing read beyond, it is not reported for a text without one, and a text with
one is not executed to its end without a failing step. -/
theorem unmatchedClose_text (config : Config) (program input : List ReadEvent) (sink : Sink) :
    (∀ count offset,
      ((initial config program input sink).after count).step.fault
          = some (.unmatchedClose offset) →
        (delivered program)[offset]? = some Op.loopClose.byte ∧
          FirstUnmatched (delivered program) offset ∧
          ((initial config program input sink).after (count + 1)).summary.programBytes
            = offset + 1 ∧
          ∃ front, Flowing front ∧ (delivered front).length = offset ∧
            program = front ++ .byte Op.loopClose.byte ::
              ((initial config program input sink).after (count + 1)).source.events) ∧
      ((¬ ∃ offset, FirstUnmatched (delivered program) offset) → ∀ count offset,
        ((initial config program input sink).after count).step.fault
          ≠ some (.unmatchedClose offset)) ∧
      ((∃ offset, FirstUnmatched (delivered program) offset) → ∀ count,
        ((initial config program input sink).after count).mode = .halted →
          ∃ failing < count,
            ((initial config program input sink).after failing).step.fault ≠ none) := by
  refine ⟨fun count offset h => ?_, fun hnone count offset h => ?_, fun hsome count h => ?_⟩
  · have hover := overcloses_of_fault config program input sink h
    obtain ⟨hbyte, hfirst⟩ := hover.firstUnmatched
    obtain ⟨front, hflow, -, hprogram, hoffset⟩ := hover.consumed
    exact ⟨hbyte, hfirst, hover.offset, front, hflow, hoffset.symm, hprogram⟩
  · exact hnone ⟨offset, (overcloses_of_fault config program input sink h).firstUnmatched.2⟩
  · rcases neverOverclosed_of_halted config program input sink h with hnever | hfailing
    · obtain ⟨offset, hfirst⟩ := hsome
      exact absurd hfirst (hnever.not_firstUnmatched offset)
    · exact hfailing

/-- The second of two closing brackets behind one opening bracket is unmatched. -/
theorem unmatchedClose_second :
    ((initial { tapeSize := 3 } ([43, 91, 45, 93, 93].map .byte) [] .accepting).after 4).step.fault
        = some (.unmatchedClose 4) ∧
      FirstUnmatched (delivered ([43, 91, 45, 93, 93].map .byte)) 4 :=
  ⟨by decide, ((unmatchedClose_text { tapeSize := 3 } ([43, 91, 45, 93, 93].map .byte) []
    .accepting).1 4 4 (by decide)).2.1⟩

end TapeMachine.Machine
