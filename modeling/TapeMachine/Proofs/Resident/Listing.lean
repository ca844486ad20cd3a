import TapeMachine.Proofs.Brackets.Partners
import TapeMachine.Resident

/-!
# Places in a program held in memory

A position counts operations and an offset counts bytes. What stands at a position, and where the
partner of a bracket stands, is told by splitting the operations of the text there.
-/

namespace TapeMachine.Listing

open Brackets

variable {text : List UInt8} {front rest body : List Op}

theorem located_append (offset : Nat) (first second : List UInt8) :
    located offset (first ++ second)
      = located offset first ++ located (offset + first.length) second := by
  induction first generalizing offset with
  | nil => rfl
  | cons byte tail ih =>
    have htail := ih (offset + 1)
    rw [Nat.add_right_comm, Nat.add_assoc] at htail
    rw [List.cons_append, located, located, List.length_cons]
    cases Op.ofByte? byte with
    | none => exact htail
    | some op => exact congrArg ((offset, op) :: ·) htail

theorem length_located (offset : Nat) (text : List UInt8) :
    (located offset text).length = (operations text).length := by
  rw [← map_snd_located offset text, List.length_map]

/-- The operation of a byte stands behind those of the bytes before it. -/
theorem located_of_byte (before after : List UInt8) (op : Op) :
    (ofText (before ++ op.byte :: after)).ops[(operations before).length]?
      = some (before.length, op) := by
  change (located 0 (before ++ op.byte :: after))[(operations before).length]? = _
  rw [located_append, ← length_located 0, List.getElem?_append_right (Nat.le_refl _),
    Nat.sub_self, Nat.zero_add, located, Op.ofByte?_byte]
  rfl

theorem exists_located {op : Op} (h : operations text = front ++ op :: rest) :
    ∃ offset, (ofText text).ops[front.length]? = some (offset, op) := by
  have hget : ((located 0 text).map Prod.snd)[front.length]? = some op := by
    rw [map_snd_located, h]
    simp
  rw [List.getElem?_map, Option.map_eq_some_iff] at hget
  obtain ⟨⟨offset, found⟩, hlocated, rfl⟩ := hget
  exact ⟨offset, hlocated⟩

theorem located_end (text : List UInt8) : (ofText text).ops[(operations text).length]? = none := by
  rw [← length_located 0]
  exact List.getElem?_eq_none (Nat.le_refl _)

theorem closing?_of_balanced
    (h : operations text = front ++ .loopOpen :: (body ++ .loopClose :: rest))
    (hbody : Balanced body) :
    (ofText text).closing? front.length = some (front.length + 1 + body.length) := by
  rw [closing?, ofText, h, find_closing hbody]
  rfl

theorem closing?_of_unclosed {final : Nat} (h : operations text = front ++ .loopOpen :: rest)
    (hrest : depthFrom 0 rest = some final) : (ofText text).closing? front.length = none := by
  rw [closing?, ofText, h, find_closing_eq_none hrest]
  rfl

theorem opening?_of_open {below : List Nat} {opening : Nat}
    (h : operations text = front ++ .loopClose :: rest)
    (hfront : openPositions front = below ++ [opening]) :
    (ofText text).opening? front.length = some opening := by
  rw [opening?, ofText, h, find_opening hfront]
  rfl

theorem opening?_of_none (h : operations text = front ++ .loopClose :: rest)
    (hfront : openPositions front = []) : (ofText text).opening? front.length = none := by
  rw [opening?, ofText, h, find_opening_eq_none hfront]
  rfl

end TapeMachine.Listing
