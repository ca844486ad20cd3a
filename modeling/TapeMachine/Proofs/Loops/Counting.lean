import Mathlib.Data.Int.GCD
import Mathlib.Data.Nat.Find
import Mathlib.Tactic.Ring
import TapeMachine.Op
import TapeMachine.Tape.Basic

/-!
# Counting modulo 256

Increments and decrements change a cell by their difference, modulo 256. A cell that is changed by
the same amount again and again comes to zero exactly if its value is a multiple of the greatest
common divisor of that amount and 256.
-/

namespace TapeMachine

/-- The operation only counts the current cell up or down. -/
def Op.Counts (op : Op) : Prop := op = .increment ∨ op = .decrement

/-- By how much the operations change the current cell, modulo 256. -/
def netEffect (ops : List Op) : Nat :=
  (((ops.count .increment : Int) - ops.count .decrement) % 256).toNat

/-- The value of a cell after the operations that change it. -/
def countedFrom : UInt8 → List Op → UInt8
  | value, [] => value
  | value, .increment :: rest => countedFrom (value + 1) rest
  | value, .decrement :: rest => countedFrom (value - 1) rest
  | value, _ :: rest => countedFrom value rest

theorem toNat_countedFrom (value : UInt8) (ops : List Op) :
    (countedFrom value ops).toNat = (value.toNat + netEffect ops) % 256 := by
  have hvalue := value.toNat_lt
  induction ops generalizing value with
  | nil =>
    simp only [countedFrom, netEffect, List.count_nil]
    omega
  | cons op rest ih =>
    cases op with
    | increment =>
      rw [countedFrom, ih (value + 1) (UInt8.toNat_lt _), UInt8.toNat_add]
      simp only [netEffect, List.count_cons, beq_iff_eq, reduceCtorEq, if_true, if_false,
        UInt8.reduceToNat]
      omega
    | decrement =>
      rw [countedFrom, ih (value - 1) (UInt8.toNat_lt _), UInt8.toNat_sub]
      simp only [netEffect, List.count_cons, beq_iff_eq, reduceCtorEq, if_true, if_false,
        UInt8.reduceToNat]
      omega
    | right | left | input | output | loopOpen | loopClose =>
      rw [countedFrom, ih value hvalue]
      · simp [netEffect]
      all_goals simp

theorem eq_zero_iff_of_toNat {value : UInt8} {count : Nat} (h : value.toNat = count % 256) :
    value = 0 ↔ 256 ∣ count := by
  rw [← UInt8.toNat_inj, h, Nat.dvd_iff_mod_eq_zero]
  rfl

/-- The first number of passes after which a value, changed by the same amount in each, comes to
zero modulo 256. -/
structure FirstZero (value change passes : Nat) : Prop where
  pos : 0 < passes
  zero : 256 ∣ value + passes * change
  least : ∀ earlier, 0 < earlier → 256 ∣ value + earlier * change → passes ≤ earlier

section Zero

variable {value change modulus passes : Nat}

/-- There is such a number exactly if the greatest common divisor allows for it. -/
theorem exists_zero_iff (hmodulus : 0 < modulus) :
    (∃ passes, 0 < passes ∧ modulus ∣ value + passes * change) ↔
      Nat.gcd change modulus ∣ value := by
  constructor
  · rintro ⟨passes, -, hzero⟩
    have hchange : Nat.gcd change modulus ∣ passes * change :=
      (Nat.gcd_dvd_left change modulus).mul_left passes
    exact (Nat.dvd_add_left hchange).mp ((Nat.gcd_dvd_right change modulus).trans hzero)
  · rintro ⟨factor, hfactor⟩
    have hbezout := Nat.gcd_eq_gcd_ab change modulus
    generalize Nat.gcdA change modulus = first, Nat.gcdB change modulus = second at hbezout
    have hnonneg : 0 ≤ (-(first * factor)) % (modulus : Int) :=
      Int.emod_nonneg _ (by omega)
    have hturns := Int.emod_def (-(first * factor)) modulus
    generalize -(first * factor) / (modulus : Int) = turns at hturns
    -- A whole turn is added, so that the number of passes is not zero.
    refine ⟨((-(first * factor)) % (modulus : Int)).toNat + modulus, by omega, ?_⟩
    rw [← Int.natCast_dvd_natCast]
    push_cast
    rw [Int.toNat_of_nonneg hnonneg, hturns, hfactor]
    refine ⟨second * factor - turns * change + change, ?_⟩
    push_cast
    rw [hbezout]
    ring

theorem exists_firstZero (h : Nat.gcd change 256 ∣ value) :
    ∃ passes, FirstZero value change passes := by
  classical
  have hexists := (exists_zero_iff (by decide)).mpr h
  obtain ⟨hpos, hzero⟩ := Nat.find_spec hexists
  exact ⟨Nat.find hexists, hpos, hzero, fun earlier hearlier hdvd =>
    Nat.find_min' hexists ⟨hearlier, hdvd⟩⟩

/-- Counted down by one, the value itself is the number of passes. -/
theorem FirstZero.of_decrement (h : FirstZero value (netEffect [.decrement]) passes)
    (hpos : 0 < value) (hlt : value < 256) : passes = value := by
  have heffect : netEffect [.decrement] = 255 := by decide
  rw [heffect] at h
  have hle := h.least value hpos (by omega)
  have hzero := h.zero
  have hpasses := h.pos
  omega

/-- Counted up by one, what is missing to 256 is the number of passes. -/
theorem FirstZero.of_increment (h : FirstZero value (netEffect [.increment]) passes)
    (hpos : 0 < value) (hlt : value < 256) : passes = 256 - value := by
  have heffect : netEffect [.increment] = 1 := by decide
  rw [heffect] at h
  have hle := h.least (256 - value) (by omega) (by omega)
  have hzero := h.zero
  have hpasses := h.pos
  omega

end Zero

namespace Tape

variable {t : Tape}

theorem set_set (first second : UInt8) (t : Tape) :
    (t.set first).set second = t.set second := by
  simp [set]

theorem set_current (t : Tape) : t.set t.current = t := by
  obtain ⟨cells, cursor, boundary⟩ := t
  refine congrArg (Tape.mk · cursor boundary) ?_
  by_cases h : cursor < cells.size
  · rw [current, Array.getElem?_eq_getElem h, Option.getD_some, Array.setIfInBounds_def, dif_pos h]
    exact Array.set_getElem_self h
  · rw [Array.setIfInBounds_def, dif_neg h]

/-- Where the current cell is not zero the cursor stands on a cell. -/
theorem inBounds_of_current_ne (h : t.current ≠ 0) : t.InBounds := by
  by_contra hout
  refine h ?_
  rw [current, Array.getElem?_eq_none (Nat.le_of_not_lt hout)]
  rfl

end Tape

end TapeMachine
