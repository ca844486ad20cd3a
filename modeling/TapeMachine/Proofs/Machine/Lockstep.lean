import TapeMachine.Proofs.Machine.Equivalence

/-!
# Two machines before the same operation

Two machines with the same data that have the same operation before them, in two texts, do the same
with it. They pass it, or go back to an opening bracket each, or end together. All that matters of
the texts is whether something is open, and where the first unmatched bracket is.
-/

namespace TapeMachine.Machine

open Brackets Listing

/-- Two machines with the same data, each at a place of its text and skipping at the same depth. -/
structure Alike (text text' : List UInt8) (front front' : List Op) (depth : Nat)
    (m m' : Machine) : Prop where
  first : Stands text front depth m
  second : Stands text' front' depth m'
  data : m.data = m'.data

/-- The first unmatched bracket of the one text, if it has one, is found at that place of the
other. -/
def Relocates (place : Nat → Nat) (text text' : List UInt8) : Prop :=
  ∀ {offset offset'}, FirstUnmatched text offset → FirstUnmatched text' offset' →
    offset' = place offset

variable {text text' : List UInt8} {front front' rest rest' : List Op} {op : Op} {depth : Nat}
  {place : Nat → Nat} {m m' : Machine}

theorem Alike.cell_iff (h : Alike text text' front front' depth m m') :
    m'.tape.current = 0 ↔ m.tape.current = 0 := by
  rw [tape_of_data h.data]

/-- Both machines meet the end. -/
theorem Alike.ends (h : Alike text text' front front' depth m m')
    (hall : operations text = front) (hall' : operations text' = front')
    (hopen : (openPositions front).length = (openPositions front').length) :
    EndTogether (Relocated place) m m' := by
  obtain ⟨hfault, hhalts, hdata⟩ := h.first.ends hall
  obtain ⟨hfault', hhalts', hdata'⟩ := h.second.ends hall'
  refine ⟨hhalts, hhalts', ?_, ?_⟩
  · rw [hdata, hdata', h.data, hopen]
  · rw [Relocated, hfault, hfault']
    rfl

/-- Both machines pass the operation. A closing bracket is passed on a zero cell only. -/
def Alike.Pass (text text' : List UInt8) (front front' : List Op) (op : Op) (depth : Nat)
    (m m' : Machine) : Prop :=
  ∃ depth' ≤ depthAfter depth op,
    Alike text text' (front ++ [op]) (front' ++ [op]) depth' m.step.machine m'.step.machine ∧
      (op = .loopClose → m.step.machine.tape.current = 0)

/-- Both machines go back to the bracket that opens the innermost loop. -/
def Alike.Jump (text text' : List UInt8) (front front' : List Op) (op : Op) (m m' : Machine) :
    Prop :=
  op = .loopClose ∧ m.step.machine.tape.current ≠ 0 ∧ ∃ below below' opening opening',
    openPositions front = below ++ [opening] ∧ openPositions front' = below' ++ [opening'] ∧
      Alike text text' (front.take opening) (front'.take opening') 0 m.step.machine
        m'.step.machine

section Next

variable (hnext : operations text = front ++ op :: rest)
  (hnext' : operations text' = front' ++ op :: rest')

include hnext hnext'

theorem Alike.skip (h : Alike text text' front front' (depth + 1) m m') :
    Alike.Pass text text' front front' op (depth + 1) m m' := by
  obtain ⟨hfirst, hdata⟩ := h.first.skips hnext
  obtain ⟨hsecond, hdata'⟩ := h.second.skips hnext'
  refine ⟨_, Nat.le_refl _, ⟨hfirst, hsecond, ?_⟩, fun _ => ?_⟩
  · rw [hdata, hdata', h.data]
  · rw [tape_of_data hdata]
    exact h.first.cell (Nat.succ_ne_zero depth)

theorem Alike.plain (h : Alike text text' front front' 0 m m') (hp : Plain op) :
    Alike.Pass text text' front front' op 0 m m' ∨ EndTogether (Relocated place) m m' := by
  obtain ⟨n, hdata, hfault, hmachine, hpass⟩ := h.first.plain hnext hp
  obtain ⟨n', hdata', hfault', hmachine', hpass'⟩ := h.second.plain hnext' hp
  obtain ⟨hsame, hdone⟩ := execute_congr hp ((hdata.trans h.data).trans hdata'.symm)
  rw [← hfault, ← hfault'] at hsame
  rw [← hmachine, ← hmachine'] at hdone
  cases hresult : m.step.fault with
  | none =>
    refine Or.inl ⟨0, Nat.zero_le _, ⟨hpass hresult, hpass' (hsame ▸ hresult), hdone⟩, ?_⟩
    exact fun hclose => absurd hclose hp.2
  | some fault =>
    refine Or.inr ⟨mode_of_fault hresult, mode_of_fault (hsame ▸ hresult), hdone, ?_⟩
    have hother : ∀ offset, fault ≠ .unmatchedClose offset := by
      rintro offset rfl
      rw [hfault] at hresult
      exact (keeps_execute hp n).fault offset hresult
    rw [Relocated, ← hsame, hresult, Option.map_some, Fault.relocate_of_ne place hother]

end Next

theorem Alike.enter (h : Alike text text' front front' 0 m m')
    (hnext : operations text = front ++ .loopOpen :: rest)
    (hnext' : operations text' = front' ++ .loopOpen :: rest') :
    Alike text text' (front ++ [.loopOpen]) (front' ++ [.loopOpen])
      (if m.tape.current = 0 then 1 else 0) m.step.machine m'.step.machine := by
  obtain ⟨hfirst, hdata⟩ := h.first.opens hnext
  obtain ⟨hsecond, hdata'⟩ := h.second.opens hnext'
  rw [← tape_of_data h.data] at hsecond
  exact ⟨hfirst, hsecond, by rw [hdata, hdata', h.data]⟩

section Closing

variable (hnext : operations text = front ++ .loopClose :: rest)
  (hnext' : operations text' = front' ++ .loopClose :: rest')

include hnext hnext'

theorem Alike.close {below below' : List Nat} {opening opening' : Nat}
    (h : Alike text text' front front' 0 m m')
    (hopen : openPositions front = below ++ [opening])
    (hopen' : openPositions front' = below' ++ [opening']) :
    Alike.Pass text text' front front' .loopClose 0 m m' ∨
      Alike.Jump text text' front front' .loopClose m m' := by
  obtain ⟨hfirst, hdata⟩ := h.first.closes hnext hopen
  obtain ⟨hsecond, hdata'⟩ := h.second.closes hnext' hopen'
  have hdone : m.step.machine.data = m'.step.machine.data := by rw [hdata, hdata', h.data]
  by_cases hcell : m.tape.current = 0
  · rw [if_pos hcell] at hfirst
    rw [if_pos (h.cell_iff.mpr hcell)] at hsecond
    refine Or.inl ⟨0, Nat.zero_le _, ⟨hfirst, hsecond, hdone⟩, fun _ => ?_⟩
    rw [tape_of_data hdata, hcell]
  · rw [if_neg hcell] at hfirst
    rw [if_neg (mt h.cell_iff.mp hcell)] at hsecond
    rw [← tape_of_data hdata] at hcell
    exact Or.inr ⟨rfl, hcell, below, below', opening, opening', hopen, hopen', hfirst, hsecond,
      hdone⟩

theorem Alike.overclose (h : Alike text text' front front' 0 m m')
    (hplace : Relocates place text text') (hopen : openPositions front = [])
    (hopen' : openPositions front' = []) : EndTogether (Relocated place) m m' := by
  obtain ⟨offset, hfault, hfirst, hdata⟩ := h.first.overcloses hnext hopen
  obtain ⟨offset', hfault', hfirst', hdata'⟩ := h.second.overcloses hnext' hopen'
  refine ⟨mode_of_fault hfault, mode_of_fault hfault', by rw [hdata, hdata', h.data], ?_⟩
  rw [Relocated, hfault, hfault', hplace hfirst hfirst']
  rfl

end Closing

/-- What two machines do with the same operation. -/
theorem Alike.step (h : Alike text text' front front' depth m m')
    (hnext : operations text = front ++ op :: rest)
    (hnext' : operations text' = front' ++ op :: rest')
    (hplace : Relocates place text text')
    (hopen : openPositions front = [] ↔ openPositions front' = []) :
    Alike.Pass text text' front front' op depth m m' ∨
      Alike.Jump text text' front front' op m m' ∨ EndTogether (Relocated place) m m' := by
  cases depth with
  | succ depth => exact Or.inl (h.skip hnext hnext')
  | zero =>
    cases op using bracketCases with
    | opening =>
      refine Or.inl ⟨_, ?_, h.enter hnext hnext', fun heq => by simp at heq⟩
      split <;> simp [depthAfter]
    | closing =>
      rcases List.eq_nil_or_concat (openPositions front) with hnil | ⟨below, opening, hsplit⟩
      · exact Or.inr (Or.inr (h.overclose hnext hnext' hplace hnil (hopen.mp hnil)))
      · rcases List.eq_nil_or_concat (openPositions front') with hnil | ⟨below', opening', hsplit'⟩
        · rw [hopen.mpr hnil] at hsplit
          simp at hsplit
        · rw [List.concat_eq_append] at hsplit hsplit'
          exact (h.close hnext hnext' hsplit hsplit').imp_right Or.inl
    | plain op hp => exact (h.plain hnext hnext' hp).imp_right Or.inr

end TapeMachine.Machine
