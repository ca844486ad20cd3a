import Mathlib.Data.List.TakeWhile
import TapeMachine.Machine.Demand

/-!
# Counting the reads

How many reads it takes to come to the next operation of a program, or to the next byte of an
input. A read past the last answer counts as well: it is answered by the end of the list. As long as
there are at most as many reads as answers, what follows those answers makes no difference, and is
found untouched behind what is left of them.
-/

namespace TapeMachine

/-- The number of reads made when the answers that are passed over do not end the reading. -/
def readsUpTo (passesOver : ReadEvent → Bool) (events : List ReadEvent) : Nat :=
  (events.takeWhile passesOver).length + 1

def ReadEvent.isInterrupted : ReadEvent → Bool
  | interrupted => true
  | byte _ | endOfStream | failure _ => false

/-- The number of reads with which a source comes to its next operation. -/
def Source.reads (s : Source) : Nat :=
  if s.exhausted then 0 else readsUpTo ReadEvent.isSilent s.events

variable {passesOver : ReadEvent → Bool} {known : List ReadEvent}

theorem readsUpTo_of_passed {event : ReadEvent} (h : passesOver event = true)
    (events : List ReadEvent) :
    readsUpTo passesOver (event :: events) = readsUpTo passesOver events + 1 := by
  simp [readsUpTo, h]

theorem readsUpTo_of_ending {event : ReadEvent} (h : passesOver event = false)
    (events : List ReadEvent) : readsUpTo passesOver (event :: events) = 1 := by
  simp [readsUpTo, h]

theorem readsUpTo_passed_append (h : ∀ event ∈ known, passesOver event = true)
    (more : List ReadEvent) :
    readsUpTo passesOver (known ++ more) = known.length + readsUpTo passesOver more := by
  rw [readsUpTo, readsUpTo, List.takeWhile_append_of_pos h, List.length_append, Nat.add_assoc]

/-- Reads that the first answers suffice for do not depend on the later ones. -/
theorem readsUpTo_append_le_iff (more : List ReadEvent) :
    readsUpTo passesOver (known ++ more) ≤ known.length ↔
      readsUpTo passesOver known ≤ known.length := by
  simp only [readsUpTo, List.takeWhile_append]
  split
  · rw [List.length_append]
    omega
  · exact Iff.rfl

theorem readsUpTo_append (h : readsUpTo passesOver known ≤ known.length)
    (more : List ReadEvent) :
    readsUpTo passesOver (known ++ more) = readsUpTo passesOver known := by
  unfold readsUpTo at h ⊢
  rw [List.takeWhile_append, if_neg (by omega)]

theorem readByte_append {more : List ReadEvent}
    (h : more = [] ∨ readsUpTo ReadEvent.isInterrupted known ≤ known.length) :
    readByte (known ++ more) = ((readByte known).1, (readByte known).2 ++ more) := by
  rcases h with rfl | h
  · simp
  induction known with
  | nil => simp [readsUpTo] at h
  | cons event rest ih =>
    cases event with
    | byte value | endOfStream | failure error => rfl
    | interrupted =>
      rw [readsUpTo_of_passed rfl] at h
      exact ih (Nat.le_of_succ_le_succ h)

theorem readByte_eq_drop (input : List ReadEvent) :
    (readByte input).2 = input.drop (readsUpTo ReadEvent.isInterrupted input) := by
  induction input with
  | nil => rfl
  | cons event rest ih =>
    cases event with
    | byte value | endOfStream | failure error => rw [readsUpTo_of_ending rfl]; rfl
    | interrupted => rw [readsUpTo_of_passed rfl]; exact ih

namespace Source

theorem scan_append {more : List ReadEvent} (start offset : Nat)
    (h : more = [] ∨ readsUpTo ReadEvent.isSilent known ≤ known.length) :
    scan (known ++ more) (start + offset)
      = ((scan known offset).1, ⟨(scan known offset).2.events ++ more,
          start + (scan known offset).2.offset, (scan known offset).2.exhausted⟩) := by
  induction known generalizing offset with
  | nil =>
    rcases h with rfl | h
    · rfl
    · simp [readsUpTo] at h
  | cons event rest ih =>
    -- An answer that is passed over takes one read of its own.
    have hrest : event.isSilent = true →
        more = [] ∨ readsUpTo ReadEvent.isSilent rest ≤ rest.length := by
      intro hsilent
      refine h.imp_right fun hle => ?_
      rw [readsUpTo_of_passed hsilent] at hle
      exact Nat.le_of_succ_le_succ hle
    cases event with
    | endOfStream | failure error => rfl
    | interrupted => exact ih offset (hrest rfl)
    | byte value =>
      cases hop : Op.ofByte? value with
      | some op => simp only [List.cons_append, scan, hop, Nat.add_assoc]
      | none =>
        have hsilent : (ReadEvent.byte value).isSilent = true := by
          simp [ReadEvent.isSilent, hop]
        simpa only [List.cons_append, scan, hop, Nat.add_assoc] using
          ih (offset + 1) (hrest hsilent)

theorem scan_eq_drop (events : List ReadEvent) (offset : Nat) :
    (scan events offset).2.events = events.drop (readsUpTo ReadEvent.isSilent events) := by
  induction events generalizing offset with
  | nil => rfl
  | cons event rest ih =>
    cases event with
    | endOfStream | failure error => rw [readsUpTo_of_ending rfl]; rfl
    | interrupted => rw [readsUpTo_of_passed rfl]; exact ih offset
    | byte value =>
      cases hop : Op.ofByte? value with
      | some op =>
        rw [readsUpTo_of_ending (by simp [ReadEvent.isSilent, hop]), scan, hop]
        rfl
      | none =>
        rw [readsUpTo_of_passed (by simp [ReadEvent.isSilent, hop]), scan, hop]
        exact ih (offset + 1)

/-- One call consumes as many answers as it makes reads. -/
theorem next_eq_drop (s : Source) : s.next.2.events = s.events.drop s.reads := by
  unfold next reads
  split
  · rfl
  · exact scan_eq_drop s.events s.offset

/-- A source that goes on has not read past its last answer. -/
theorem reads_le_of_next {s : Source} (h : s.next.2.exhausted = false) :
    s.reads ≤ s.events.length := by
  obtain ⟨events, offset, exhausted⟩ := s
  cases exhausted with
  | true => exact Nat.zero_le _
  | false =>
    change (scan events offset).2.exhausted = false at h
    change readsUpTo ReadEvent.isSilent events ≤ events.length
    induction events generalizing offset with
    | nil => simp [scan] at h
    | cons event rest ih =>
      cases event with
      | endOfStream | failure error => rw [readsUpTo_of_ending rfl]; exact Nat.le_add_left 1 _
      | interrupted =>
        rw [readsUpTo_of_passed rfl]
        exact Nat.succ_le_succ (ih offset h)
      | byte value =>
        cases hop : Op.ofByte? value with
        | some op =>
          rw [readsUpTo_of_ending (by simp [ReadEvent.isSilent, hop])]
          exact Nat.le_add_left 1 _
        | none =>
          rw [scan, hop] at h
          rw [readsUpTo_of_passed (by simp [ReadEvent.isSilent, hop])]
          exact Nat.succ_le_succ (ih (offset + 1) h)

end Source

end TapeMachine
