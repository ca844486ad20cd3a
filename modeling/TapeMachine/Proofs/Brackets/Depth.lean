import Mathlib.Data.List.Basic
import TapeMachine.Program.Brackets

/-!
# Bracket depth

How the depth of a sequence of operations depends on its parts, and what it says about the bytes of
a text. A sequence has a depth exactly when no part of it up to a place closes more brackets than it
opens, and the depth is then the difference of the two counts.
-/

namespace TapeMachine.Brackets

/-- The operation is no bracket. -/
def Plain (op : Op) : Prop := op ≠ .loopOpen ∧ op ≠ .loopClose

/-- Brackets are told apart, all other operations are alike. -/
@[elab_as_elim]
theorem bracketCases {motive : Op → Prop} (opening : motive .loopOpen)
    (closing : motive .loopClose) (plain : ∀ op, Plain op → motive op) (op : Op) : motive op := by
  by_cases ho : op = .loopOpen
  · exact ho ▸ opening
  by_cases hc : op = .loopClose
  · exact hc ▸ closing
  · exact plain op ⟨ho, hc⟩

theorem depthFrom_plain {op : Op} (h : Plain op) (depth : Nat) (rest : List Op) :
    depthFrom depth (op :: rest) = depthFrom depth rest := by
  obtain ⟨ho, hc⟩ := h
  cases op <;> first | exact absurd rfl ho | exact absurd rfl hc | cases depth <;> rfl

theorem depthFrom_concat {depth between : Nat} {ops : List Op}
    (h : depthFrom depth ops = some between) (op : Op) :
    depthFrom depth (ops ++ [op]) = depthFrom between [op] := by
  rw [depthFrom_append, h]
  rfl

/-- A sequence of known depth can be split off in front. -/
theorem depthFrom_append_of_eq {depth between : Nat} {first : List Op}
    (h : depthFrom depth first = some between) (second : List Op) :
    depthFrom depth (first ++ second) = depthFrom between second := by
  rw [depthFrom_append, h]
  rfl

/-- The first part of a sequence with a depth has a depth too. -/
theorem depthFrom_of_append {depth final : Nat} {first second : List Op}
    (h : depthFrom depth (first ++ second) = some final) :
    ∃ between, depthFrom depth first = some between ∧ depthFrom between second = some final := by
  rw [depthFrom_append] at h
  exact Option.bind_eq_some_iff.mp h

/-- A sequence without a depth has a first unmatched bracket. What stands before that bracket closes
all that was open. -/
theorem exists_unmatched {depth : Nat} {ops : List Op} (h : depthFrom depth ops = none) :
    ∃ body rest, ops = body ++ .loopClose :: rest ∧ depthFrom depth body = some 0 := by
  induction ops generalizing depth with
  | nil => simp [depthFrom] at h
  | cons op rest ih =>
    cases op using bracketCases with
    | opening =>
      obtain ⟨body, tail, hrest, hbody⟩ := @ih (depth + 1) h
      exact ⟨.loopOpen :: body, tail, by rw [hrest]; rfl, hbody⟩
    | closing =>
      cases depth with
      | zero => exact ⟨[], rest, rfl, rfl⟩
      | succ depth =>
        obtain ⟨body, tail, hrest, hbody⟩ := @ih depth h
        exact ⟨.loopClose :: body, tail, by rw [hrest]; rfl, hbody⟩
    | plain op hp =>
      rw [depthFrom_plain hp] at h
      obtain ⟨body, tail, hrest, hbody⟩ := ih h
      refine ⟨op :: body, tail, by rw [hrest]; rfl, ?_⟩
      rw [depthFrom_plain hp]
      exact hbody

/-- A nonempty sequence that starts with an opening bracket and stays inside it up to its last
operation. -/
def Enclosed (ops : List Op) : Prop :=
  ops.head? = some .loopOpen ∧
    ∀ length, 0 < length → length < ops.length →
      ∃ depth, depthFrom 0 (ops.take length) = some (depth + 1)

theorem enclosed_singleton : Enclosed [.loopOpen] := by
  refine ⟨rfl, ?_⟩
  intro length hpos hlt
  simp only [List.length_singleton] at hlt
  omega

/-- A sequence that is still inside its first bracket can be followed by any operation. -/
theorem Enclosed.concat {ops : List Op} (h : Enclosed ops) {depth : Nat}
    (hd : depthFrom 0 ops = some (depth + 1)) (op : Op) : Enclosed (ops ++ [op]) := by
  refine ⟨?_, ?_⟩
  · rw [List.head?_append, h.1]
    rfl
  · intro length hpos hlt
    rw [List.length_append, List.length_singleton] at hlt
    rw [List.take_append_of_le_length (by omega)]
    by_cases hl : length < ops.length
    · exact h.2 length hpos hl
    · rw [List.take_of_length_le (by omega)]
      exact ⟨depth, hd⟩

/-- Its first bracket can only be closed by its last operation. -/
theorem Enclosed.length_le {ops : List Op} (h : Enclosed ops) {length : Nat} (hpos : 0 < length)
    (hd : depthFrom 0 (ops.take length) = some 0) : ops.length ≤ length := by
  by_contra hlt
  obtain ⟨depth, hdepth⟩ := h.2 length hpos (by omega)
  rw [hd] at hdepth
  simp at hdepth

theorem openings_cons (byte : UInt8) (text : List UInt8) :
    openings (byte :: text) = openings [byte] + openings text := by
  simp only [openings, List.count_cons, List.count_nil]
  omega

theorem closings_cons (byte : UInt8) (text : List UInt8) :
    closings (byte :: text) = closings [byte] + closings text := by
  simp only [closings, List.count_cons, List.count_nil]
  omega

theorem openings_singleton (byte : UInt8) :
    openings [byte] = if Op.ofByte? byte = some .loopOpen then 1 else 0 := by
  rw [openings, List.count_singleton]
  simp only [Op.ofByte?_eq_some_iff, beq_iff_eq]

theorem closings_singleton (byte : UInt8) :
    closings [byte] = if Op.ofByte? byte = some .loopClose then 1 else 0 := by
  rw [closings, List.count_singleton]
  simp only [Op.ofByte?_eq_some_iff, beq_iff_eq]

/-- No part of the text up to a byte closes more brackets than it opens and `depth` more. -/
def ClosedWithin (depth : Nat) (text : List UInt8) : Prop :=
  ∀ length, closings (text.take length) ≤ depth + openings (text.take length)

theorem closedWithin_cons {depth : Nat} {byte : UInt8} {text : List UInt8} :
    ClosedWithin depth (byte :: text) ↔
      ∀ length, closings [byte] + closings (text.take length)
        ≤ depth + openings [byte] + openings (text.take length) := by
  constructor
  · intro h length
    have hl := h (length + 1)
    rw [List.take_succ_cons, closings_cons, openings_cons] at hl
    omega
  · intro h length
    cases length with
    | zero => simp [closings]
    | succ length =>
      have hl := h length
      rw [List.take_succ_cons, closings_cons, openings_cons]
      omega

/-- The depth of the operations of a text in terms of the counts of its bytes. -/
theorem depthFrom_operations_iff {depth final : Nat} {text : List UInt8} :
    depthFrom depth (Listing.operations text) = some final ↔
      ClosedWithin depth text ∧ final + closings text = depth + openings text := by
  induction text generalizing depth with
  | nil => simp [Listing.operations, depthFrom, ClosedWithin, openings, closings, eq_comm]
  | cons byte rest ih =>
    rw [closedWithin_cons, closings_cons byte rest, openings_cons byte rest, openings_singleton,
      closings_singleton]
    cases hb : Op.ofByte? byte with
    | none =>
      have hops : Listing.operations (byte :: rest) = Listing.operations rest := by
        simp [Listing.operations, hb]
      rw [hops, ih]
      simp [ClosedWithin]
    | some op =>
      have hops : Listing.operations (byte :: rest) = op :: Listing.operations rest := by
        simp [Listing.operations, hb]
      rw [hops]
      cases op using bracketCases with
      | opening =>
        change depthFrom (depth + 1) (Listing.operations rest) = some final ↔ _
        rw [ih]
        simp [ClosedWithin, Nat.add_assoc]
      | closing =>
        cases depth with
        | zero =>
          simp only [depthFrom, reduceCtorEq, if_true, false_iff, not_and]
          intro h
          have hzero := h 0
          simp [closings, openings] at hzero
        | succ depth =>
          change depthFrom depth (Listing.operations rest) = some final ↔ _
          rw [ih]
          simp only [ClosedWithin, reduceCtorEq, if_true, Option.some.injEq, if_false]
          refine and_congr (forall_congr' fun length => ?_) ?_ <;> omega
      | plain op hp =>
        rw [depthFrom_plain hp, ih]
        simp [ClosedWithin, hp.1, hp.2]

/-- A text whose operations have a depth closes no bracket that it has not opened, and the depth is
the number of brackets left open. -/
theorem neverOverclosed_of_depth {final : Nat} {text : List UInt8}
    (h : depthFrom 0 (Listing.operations text) = some final) :
    NeverOverclosed text ∧ final + closings text = openings text := by
  obtain ⟨hclosed, hcount⟩ := depthFrom_operations_iff.mp h
  refine ⟨fun length => ?_, by omega⟩
  have hl := hclosed length
  omega

/-- A closing bracket behind a text that leaves nothing open is the first unmatched one. -/
theorem firstUnmatched_of_balanced {front : List UInt8} (h : Balanced (Listing.operations front))
    (rest : List UInt8) :
    FirstUnmatched (front ++ Op.loopClose.byte :: rest) front.length := by
  obtain ⟨hnever, hcount⟩ := neverOverclosed_of_depth h
  refine ⟨by simp, ?_, ?_⟩
  · have htake : (front ++ Op.loopClose.byte :: rest).take (front.length + 1)
        = front ++ [Op.loopClose.byte] := by
      simp [List.take_append, List.take_of_length_le]
    have ho : openings (front ++ [Op.loopClose.byte]) = openings front := by
      simp [openings, List.count_append, Op.byte]
    have hc : closings (front ++ [Op.loopClose.byte]) = closings front + 1 := by
      simp [closings, List.count_append]
    rw [htake, ho, hc]
    omega
  · intro length hlength
    rw [List.take_append_of_le_length hlength]
    exact hnever length

/-- No byte is the first unmatched bracket of a text that closes no bracket it has not opened. -/
theorem NeverOverclosed.not_firstUnmatched {text : List UInt8} (h : NeverOverclosed text)
    (offset : Nat) : ¬ FirstUnmatched text offset := by
  intro hfirst
  have hover := hfirst.overclosed
  have hnever := h (offset + 1)
  omega

end TapeMachine.Brackets
