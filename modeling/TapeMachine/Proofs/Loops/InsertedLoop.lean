import TapeMachine.Proofs.Machine.Lockstep

/-!
# A loop put into a text

A text and the same text with a balanced loop put into it are executed in step up to the place of
the loop, and from there on as well if the loop is passed over. What remains is the arrival in front
of the loop, where the one machine has the loop before it and the other what comes behind it.
-/

namespace TapeMachine

namespace Brackets

/-- Operations passed in a sequence, and in the same sequence with a part put into it. They end in
front of the part, or they hold all of it. -/
inductive Corresponds (ahead part : List Op) : List Op → List Op → Prop where
  | before {front : List Op} (h : front.length < ahead.length) : Corresponds ahead part front front
  | behind (front : List Op) : Corresponds ahead part (ahead ++ front) (ahead ++ part ++ front)

variable {ahead part front front' : List Op}

theorem Corresponds.openPositions_eq (h : Corresponds ahead part front front')
    (hpart : Balanced part) :
    openPositions front' = (openPositions front).map (moved ahead.length part.length) := by
  cases h with
  | before hlt =>
    have hstays : ∀ position ∈ openPositions front,
        moved ahead.length part.length position = position := by
      intro position hmem
      have hposition := lt_length_of_mem hmem
      exact moved_of_lt part.length (by omega)
    rw [List.map_congr_left hstays, List.map_id']
  | behind front => exact openPositions_insert ahead front hpart

/-- Both go back to the same bracket. -/
theorem Corresponds.take {opening : Nat} (h : Corresponds ahead part front front')
    (hlt : opening < front.length) : Corresponds ahead part (front.take opening)
      (front'.take (moved ahead.length part.length opening)) := by
  cases h with
  | before hlength =>
    rw [moved_of_lt part.length (by omega)]
    exact .before (by rw [List.length_take]; omega)
  | behind front =>
    by_cases hahead : opening < ahead.length
    · rw [moved_of_lt part.length hahead, List.append_assoc,
        List.take_append_of_le_length (Nat.le_of_lt hahead),
        List.take_append_of_le_length (Nat.le_of_lt hahead)]
      exact .before (by rw [List.length_take]; omega)
    · obtain ⟨between, rfl⟩ := Nat.exists_eq_add_of_le (Nat.le_of_not_lt hahead)
      rw [moved_of_le part.length (Nat.le_add_right _ _), List.take_length_add_append,
        Nat.add_right_comm, ← List.length_append, List.take_length_add_append]
      exact .behind _

end Brackets

namespace Machine

open Brackets Listing

/-- The second text is the first one with a balanced loop put into it. -/
structure Inserts (place : Nat → Nat) (text text' : List UInt8) (ahead body behind : List Op) :
    Prop where
  without : operations text = ahead ++ behind
  inserted : operations text' = ahead ++ (enclose body ++ behind)
  balanced : Balanced body
  relocates : Relocates place text text'

theorem inserts_looped (first last : List UInt8) {body : List UInt8}
    (h : Balanced (operations body)) :
    Inserts (moved first.length (body.length + 2)) (first ++ last) (first ++ (looped body ++ last))
      (operations first) (operations body) (operations last) where
  without := operations_append first last
  inserted := by rw [operations_append, operations_append, operations_looped]
  balanced := h
  relocates := by
    intro offset offset' hoffset hoffset'
    rw [← length_looped body]
    exact hoffset'.unique (hoffset.insert (balanced_looped h))

/-- Two machines with the same data, at corresponding places of their texts. -/
def Tracks (text text' : List UInt8) (ahead part : List Op) (m m' : Machine) : Prop :=
  ∃ front front' depth, Corresponds ahead part front front' ∧
    Alike text text' front front' depth m m'

variable {place : Nat → Nat} {text text' : List UInt8} {ahead body behind front front' : List Op}
  {depth : Nat} {m m' : Machine}

/-- At corresponding places the same operation comes next, or none does. Behind it the places
correspond, unless it is the last one in front of the loop. -/
theorem Inserts.next (hi : Inserts place text text' ahead body behind)
    (hc : Corresponds ahead (enclose body) front front') (hfront : front <+: operations text) :
    (operations text = front ∧ operations text' = front') ∨
      ∃ op rest rest', operations text = front ++ op :: rest ∧
        operations text' = front' ++ op :: rest' ∧
        (Corresponds ahead (enclose body) (front ++ [op]) (front' ++ [op]) ∨
          ahead = front ++ [op] ∧ front' = front) := by
  rw [hi.without] at hfront ⊢
  rw [hi.inserted]
  cases hc with
  | before hlt =>
    obtain ⟨tail, rfl⟩ := List.prefix_of_prefix_length_le hfront (List.prefix_append ahead behind)
      (Nat.le_of_lt hlt)
    cases tail with
    | nil => simp at hlt
    | cons op tail =>
      refine Or.inr ⟨op, tail ++ behind, tail ++ (enclose body ++ behind), by simp, by simp, ?_⟩
      cases tail with
      | nil => exact Or.inr ⟨rfl, rfl⟩
      | cons next tail => exact Or.inl (.before (by simp))
  | behind front =>
    obtain ⟨rest, rfl⟩ := (List.prefix_append_right_inj ahead).mp hfront
    cases rest with
    | nil => exact Or.inl ⟨by simp, by simp⟩
    | cons op rest =>
      refine Or.inr ⟨op, rest, rest, by simp, by simp, Or.inl ?_⟩
      rw [List.append_assoc, List.append_assoc _ front]
      exact .behind (front ++ [op])

/-- The machines have come to the place of the loop, having passed an operation. -/
def Arrives (text text' : List UInt8) (ahead : List Op) (m m' : Machine) : Prop :=
  ∃ front op depth, ahead = front ++ [op] ∧ Alike text text' ahead ahead depth m m' ∧
    (op = .loopClose → m.tape.current = 0)

theorem Inserts.step (hi : Inserts place text text' ahead body behind)
    (h : Tracks text text' ahead (enclose body) m m') :
    Tracks text text' ahead (enclose body) m.step.machine m'.step.machine ∨
      Arrives text text' ahead m.step.machine m'.step.machine ∨
        EndTogether (Relocated place) m m' := by
  obtain ⟨front, front', depth, hc, ha⟩ := h
  have hopen := hc.openPositions_eq hi.balanced.enclose
  rcases hi.next hc ha.first.isPrefix with ⟨hall, hall'⟩ | ⟨op, rest, rest', hnext, hnext', hplace⟩
  · exact Or.inr (Or.inr (ha.ends hall hall' (by rw [hopen, List.length_map])))
  rcases ha.step hnext hnext' hi.relocates (by rw [hopen, List.map_eq_nil_iff]) with
    ⟨depth', -, hpass, hcell⟩ | ⟨-, -, below, below', opening, opening', hfirst, hsecond, hjump⟩ |
    hend
  · rcases hplace with hon | ⟨rfl, rfl⟩
    · exact Or.inl ⟨_, _, depth', hon, hpass⟩
    · exact Or.inr (Or.inl ⟨front', op, depth', rfl, hpass, hcell⟩)
  · rw [hfirst, List.map_append, List.map_singleton] at hopen
    obtain rfl := innermost_unique hopen hsecond
    have hlt : opening < front.length := lt_length_of_mem (by simp [hfirst])
    exact Or.inl ⟨_, _, 0, hc.take hlt, hjump⟩
  · exact Or.inr (Or.inr hend)

/-- On a zero cell the loop is passed over, and nothing is done. -/
theorem Inserts.arrives (hi : Inserts place text text' ahead body behind)
    (h : Alike text text' ahead ahead depth m m') (hcell : m.tape.current = 0) :
    ∃ count, Tracks text text' ahead (enclose body) m (m'.after count) := by
  obtain ⟨count, hpast, hdata⟩ :=
    h.second.passes_over (h.cell_iff.mpr hcell) hi.balanced hi.inserted
  refine ⟨count, ahead ++ [], ahead ++ enclose body ++ [], depth, .behind [], ?_⟩
  rw [List.append_nil, List.append_nil]
  exact ⟨h.first, hpast, h.data.trans hdata.symm⟩

theorem Tracks.data {part : List Op} (h : Tracks text text' ahead part m m') :
    m.data = m'.data := by
  obtain ⟨_, _, _, -, ha⟩ := h
  exact ha.data

theorem Tracks.goes {part : List Op} (h : Tracks text text' ahead part m m') :
    m.mode ≠ .halted ∧ m'.mode ≠ .halted := by
  obtain ⟨_, _, _, -, ha⟩ := h
  exact ⟨ha.first.goes, ha.second.goes⟩

theorem alike_initial (config : Config) (text text' : List UInt8) (input : List ReadEvent)
    (sink : Sink) : Alike text text' [] [] 0 (initial config (text.map .byte) input sink)
      (initial config (text'.map .byte) input sink) :=
  ⟨stands_initial config text input sink, stands_initial config text' input sink, rfl⟩

end Machine

end TapeMachine
