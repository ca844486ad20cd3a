import TapeMachine.Proofs.Loops.InsertedLoop

/-!
# Loops that are comments

At the start of a program, and right behind a closing bracket, the current cell is zero. A balanced
loop that stands there is never entered, whatever is in it, and can be left out.
-/

namespace TapeMachine

theorem Tape.current_blank (size : Nat) (boundary : Boundary) :
    (Tape.blank size boundary).current = 0 := by
  simp only [Tape.current, Tape.blank, Array.getElem?_replicate]
  split <;> rfl

namespace Machine

open Brackets Listing

variable {place : Nat → Nat} {text text' : List UInt8} {ahead body behind : List Op}

/-- Behind a closing bracket the loop is passed over whenever the machine comes to it. -/
theorem Inserts.bisimulation (hi : Inserts place text text' ahead body behind)
    (hlast : ahead = [] ∨ ahead.getLast? = some .loopClose) :
    Bisimulation (Tracks text text' ahead (enclose body)) (Relocated place) where
  data := Tracks.data
  goes := Tracks.goes
  steps := by
    intro m m' h
    rcases hi.step h with hnext | ⟨front, op, depth, hahead, ha, hcell⟩ | hend
    · exact Or.inl ⟨0, 0, hnext⟩
    · obtain rfl : op = .loopClose := by simpa [hahead] using hlast
      obtain ⟨count, hnext⟩ := hi.arrives ha (hcell rfl)
      exact Or.inl ⟨0, count, hnext⟩
    · exact Or.inr hend

/-- A balanced loop at the start of a program, or behind a closing bracket, makes no difference to
the rest. -/
theorem equivalent_insert (config : Config) (first body last : List UInt8)
    (input : List ReadEvent) (sink : Sink)
    (hfirst : operations first = [] ∨ (operations first).getLast? = some .loopClose)
    (hbody : Balanced (operations body)) :
    Equivalent (moved first.length (body.length + 2))
      (initial config ((first ++ last).map .byte) input sink)
      (initial config ((first ++ (looped body ++ last)).map .byte) input sink) := by
  have hi := inserts_looped first last hbody
  have hstart := alike_initial config (first ++ last) (first ++ (looped body ++ last)) input sink
  by_cases hnone : operations first = []
  · have hcell := Tape.current_blank config.tapeSize config.boundary
    obtain ⟨count, hrelated⟩ := hi.arrives (by rw [hnone]; exact hstart) hcell
    exact (hi.bisimulation hfirst).equivalent count hrelated
  · have hbefore : Corresponds (operations first) (enclose (operations body)) [] [] :=
      .before (List.length_pos_iff.mpr hnone)
    exact (hi.bisimulation hfirst).equivalent 0 ⟨[], [], 0, hbefore, hstart⟩

/-- A loop with output and another loop in it stands behind a loop that is run through. -/
theorem equivalent_insert_behind :
    (operations [43, 91, 45, 93]).getLast? = some .loopClose ∧
      Balanced (operations [46, 91, 62, 93]) ∧
      Equivalent (moved 4 6)
        (initial { tapeSize := 3 } (([43, 91, 45, 93] ++ [43, 46, 93] : List UInt8).map .byte) []
          .accepting)
        (initial { tapeSize := 3 }
          (([43, 91, 45, 93] ++ (looped [46, 91, 62, 93] ++ [43, 46, 93])).map .byte) []
          .accepting) :=
  ⟨by decide, by decide, equivalent_insert { tapeSize := 3 } [43, 91, 45, 93] [46, 91, 62, 93]
    [43, 46, 93] [] .accepting (Or.inr (by decide)) (by decide)⟩

end Machine

end TapeMachine
