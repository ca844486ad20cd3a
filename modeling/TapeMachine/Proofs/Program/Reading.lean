import Mathlib.Data.List.TakeWhile
import TapeMachine.Machine.Demand
import TapeMachine.Program.Listing

/-!
# What a source has read

A source that goes on has consumed a part of its stream that holds bytes and interruptions only. One
call reads on over comments and interruptions to an operation, to the end or to a failure, and what
has been delivered until then are the operations of the part that was consumed.
-/

namespace TapeMachine

namespace Listing

/-- The answers hold neither an end nor a failure. -/
def Flowing (events : List ReadEvent) : Prop :=
  ∀ event ∈ events, event ≠ .endOfStream ∧ ∀ error, event ≠ .failure error

theorem Flowing.append {first second : List ReadEvent} (hf : Flowing first)
    (hs : Flowing second) : Flowing (first ++ second) := by
  intro event hmem
  rcases List.mem_append.mp hmem with h | h
  · exact hf event h
  · exact hs event h

theorem flowing_byte (value : UInt8) : Flowing [.byte value] := by
  intro event hmem
  obtain rfl := List.mem_singleton.mp hmem
  simp

theorem delivered_append {first : List ReadEvent} (h : Flowing first) (second : List ReadEvent) :
    delivered (first ++ second) = delivered first ++ delivered second := by
  induction first with
  | nil => rfl
  | cons event rest ih =>
    have hrest : Flowing rest := fun e he => h e (List.mem_cons_of_mem _ he)
    have hevent := h event List.mem_cons_self
    cases event with
    | byte value => simp only [List.cons_append, delivered, ih hrest]
    | interrupted => exact ih hrest
    | endOfStream => exact absurd rfl hevent.1
    | failure error => exact absurd rfl (hevent.2 error)

theorem unfailing_append {first : List ReadEvent} (h : Flowing first) (second : List ReadEvent) :
    Unfailing (first ++ second) ↔ Unfailing second := by
  induction first with
  | nil => exact Iff.rfl
  | cons event rest ih =>
    have hrest : Flowing rest := fun e he => h e (List.mem_cons_of_mem _ he)
    have hevent := h event List.mem_cons_self
    cases event with
    | byte value | interrupted => exact ih hrest
    | endOfStream => exact absurd rfl hevent.1
    | failure error => exact absurd rfl (hevent.2 error)

theorem unfailing_bytes (text : List UInt8) : Unfailing (text.map .byte) := by
  induction text with
  | nil => trivial
  | cons byte rest ih => exact ih

/-- Comments and interruptions only. -/
def Silent (events : List ReadEvent) : Prop := ∀ event ∈ events, event.isSilent = true

theorem Silent.flowing {events : List ReadEvent} (h : Silent events) : Flowing events := by
  intro event hmem
  have hsilent := h event hmem
  cases event <;> simp_all [ReadEvent.isSilent]

theorem operations_silent {events : List ReadEvent} (h : Silent events) :
    operations (delivered events) = [] := by
  induction events with
  | nil => rfl
  | cons event rest ih =>
    have hrest : Silent rest := fun e he => h e (List.mem_cons_of_mem _ he)
    have hevent := h event List.mem_cons_self
    cases event with
    | byte value =>
      have hnone : Op.ofByte? value = none := Option.isNone_iff_eq_none.mp hevent
      simpa [delivered, operations, hnone] using ih hrest
    | interrupted => exact ih hrest
    | endOfStream => simp [ReadEvent.isSilent] at hevent
    | failure error => simp [ReadEvent.isSilent] at hevent

end Listing

namespace Source

open Listing

/-- Comments are counted and interruptions are not; both are passed over. -/
theorem scan_silent {skipped : List ReadEvent} (h : Silent skipped) (rest : List ReadEvent)
    (offset : Nat) :
    scan (skipped ++ rest) offset = scan rest (offset + (delivered skipped).length) := by
  induction skipped generalizing offset with
  | nil => rfl
  | cons event tail ih =>
    have htail : Silent tail := fun e he => h e (List.mem_cons_of_mem _ he)
    have hevent := h event List.mem_cons_self
    cases event with
    | byte value =>
      have hnone : Op.ofByte? value = none := Option.isNone_iff_eq_none.mp hevent
      have hlength : (delivered (.byte value :: tail)).length = (delivered tail).length + 1 := rfl
      rw [List.cons_append, scan, hnone, hlength]
      change scan (tail ++ rest) (offset + 1) = _
      rw [ih htail, Nat.add_right_comm, Nat.add_assoc]
    | interrupted => exact ih htail offset
    | endOfStream => simp [ReadEvent.isSilent] at hevent
    | failure error => simp [ReadEvent.isSilent] at hevent

theorem scan_error {events : List ReadEvent} {offset : Nat} {fault : Fault}
    (h : (scan events offset).1 = .error fault) : ∃ error, fault = .unavailable .program error := by
  fun_induction scan events offset with
  | case4 offset error rest => exact ⟨_, (Except.error.inj h).symm⟩
  | _ => simp_all

/-- A program fails only by a read of its stream. -/
theorem next_error {s : Source} {fault : Fault} (h : s.next.1 = .error fault) :
    ∃ error, fault = .unavailable .program error := by
  unfold next at h
  split at h
  · simp at h
  · exact scan_error h

/-- The answers that reading on passes over, and those from the one that ends it on. -/
theorem exists_silent_append (events : List ReadEvent) :
    ∃ skipped rest, events = skipped ++ rest ∧ Silent skipped ∧
      ∀ event ∈ rest.head?, event.isSilent = false := by
  refine ⟨events.takeWhile ReadEvent.isSilent, events.dropWhile ReadEvent.isSilent,
    List.takeWhile_append_dropWhile.symm, ?_, ?_⟩
  · intro event hmem
    exact List.mem_takeWhile_imp hmem
  · intro event hhead
    have hnot := List.head?_dropWhile_not ReadEvent.isSilent events
    rw [Option.mem_def.mp hhead] at hnot
    simpa using hnot

/-- What ends the reading on, behind what is passed over. -/
inductive EndsReading (rest : List ReadEvent) (offset : Nat) :
    Except Fault (Option Op) × Source → Prop where
  | op (op : Op) (left : List ReadEvent) (h : rest = .byte op.byte :: left) :
    EndsReading rest offset (.ok (some op), ⟨left, offset + 1, false⟩)
  | endOfStream (left : List ReadEvent) (h : rest = .endOfStream :: left) :
    EndsReading rest offset (.ok none, ⟨left, offset, true⟩)
  | noAnswer (h : rest = []) : EndsReading rest offset (.ok none, ⟨[], offset, true⟩)
  | failure (error : IoError) (left : List ReadEvent) (h : rest = .failure error :: left) :
    EndsReading rest offset (.error (.unavailable .program error), ⟨left, offset, false⟩)

theorem scan_cases (events : List ReadEvent) (offset : Nat) : ∃ skipped rest, Silent skipped ∧
    events = skipped ++ rest ∧
      EndsReading rest (offset + (delivered skipped).length) (scan events offset) := by
  obtain ⟨skipped, rest, rfl, hsilent, hhead⟩ := exists_silent_append events
  refine ⟨skipped, rest, hsilent, rfl, ?_⟩
  rw [scan_silent hsilent]
  cases rest with
  | nil => exact .noAnswer rfl
  | cons event rest =>
    have hloud := hhead event rfl
    cases event with
    | byte value =>
      obtain ⟨op, hop⟩ := Option.isSome_iff_exists.mp (Option.isNone_eq_false_iff.mp hloud)
      obtain rfl := Op.eq_byte_of_ofByte? hop
      rw [scan, Op.ofByte?_byte]
      exact .op op rest rfl
    | endOfStream => exact .endOfStream rest rfl
    | interrupted => simp [ReadEvent.isSilent] at hloud
    | failure error => exact .failure error rest rfl

/-- A source that goes on has read a part of its program without an end or a failure, and has
counted the bytes in it. -/
structure ReadsOn (program read : List ReadEvent) (s : Source) : Prop where
  split : program = read ++ s.events
  flowing : Flowing read
  offset : s.offset = (delivered read).length
  exhausted : s.exhausted = false

theorem readsOn_ofEvents (program : List ReadEvent) : ReadsOn program [] (ofEvents program) where
  split := rfl
  flowing := by simp [Flowing]
  offset := rfl
  exhausted := rfl

variable {program read : List ReadEvent} {s : Source}

/-- What a call does, by the answer that ends it. -/
theorem ReadsOn.next_cases (h : ReadsOn program read s) :
    ∃ front, Flowing front ∧ operations (delivered front) = operations (delivered read) ∧
      ((∃ op, s.next.1 = .ok (some op) ∧ ReadsOn program (front ++ [.byte op.byte]) s.next.2) ∨
        (s.next.1 = .ok none ∧ s.next.2.exhausted = true ∧ delivered program = delivered front ∧
          s.next.2.offset = (delivered program).length) ∨
        ∃ error, s.next.1 = .error (.unavailable .program error) ∧
          ¬Listing.Unfailing program) := by
  obtain ⟨skipped, rest, hsilent, hevents, hends⟩ := scan_cases s.events s.offset
  have hflow : Flowing (read ++ skipped) := h.flowing.append hsilent.flowing
  have hdelivered : delivered (read ++ skipped) = delivered read ++ delivered skipped :=
    delivered_append h.flowing skipped
  have hprogram : program = (read ++ skipped) ++ rest := by
    rw [h.split, hevents, List.append_assoc]
  have hoffset : s.offset + (delivered skipped).length = (delivered (read ++ skipped)).length := by
    rw [hdelivered, List.length_append, h.offset]
  have hnext : s.next = scan s.events s.offset := by
    rw [next, h.exhausted]
    rfl
  refine ⟨read ++ skipped, hflow, ?_, ?_⟩
  · rw [hdelivered, operations_append, operations_silent hsilent, List.append_nil]
  rw [hnext]
  rw [hoffset] at hends
  generalize scan s.events s.offset = answer at hends
  cases hends with
  | op op left hrest =>
    refine Or.inl ⟨op, rfl, ?_, hflow.append (flowing_byte op.byte), ?_, rfl⟩
    · rw [hprogram, hrest, List.append_assoc (read ++ skipped)]
      rfl
    · rw [delivered_append hflow, List.length_append]
      rfl
  | endOfStream left hrest =>
    have hall : delivered program = delivered (read ++ skipped) := by
      rw [hprogram, hrest, delivered_append hflow]
      simp [delivered]
    exact Or.inr (Or.inl ⟨rfl, rfl, hall, by rw [hall]⟩)
  | noAnswer hrest =>
    rw [hrest, List.append_nil] at hprogram
    exact Or.inr (Or.inl ⟨rfl, rfl, by rw [hprogram], by rw [hprogram]⟩)
  | failure error left hrest =>
    refine Or.inr (Or.inr ⟨error, rfl, ?_⟩)
    rw [hprogram, hrest, unfailing_append hflow]
    exact not_false

end Source

end TapeMachine
