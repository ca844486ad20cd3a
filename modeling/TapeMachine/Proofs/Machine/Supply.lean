import TapeMachine.Machine.Upcoming
import TapeMachine.Proofs.Machine.Untouched

/-!
# What a machine is supplied with

A failed read of the program ends a run, so a machine can count only on the operations that come
before the first failure: the unread part of its recording and what its source delivers until then.
`Delivers` tells what the fetches of such operations do to the recording and to the source. They do
the same whatever is made of the operations, and whether these are recorded, replayed or neither.
-/

namespace TapeMachine

namespace Listing

/-- The bytes that a stream delivers before its first failure and before its first end. -/
def secured : List ReadEvent → List UInt8
  | [] => []
  | .endOfStream :: _ => []
  | .failure _ :: _ => []
  | .byte value :: rest => value :: secured rest
  | .interrupted :: rest => secured rest

/-- The first failure that a stream reports before its first end. -/
def failure? : List ReadEvent → Option IoError
  | [] => none
  | .endOfStream :: _ => none
  | .failure error :: _ => some error
  | .byte _ :: rest => failure? rest
  | .interrupted :: rest => failure? rest

theorem unfailing_iff {events : List ReadEvent} : Unfailing events ↔ failure? events = none := by
  fun_induction failure? events <;> simp_all [Unfailing]

/-- Without a failure nothing that is delivered comes too late. -/
theorem secured_of_unfailing {events : List ReadEvent} (h : failure? events = none) :
    secured events = delivered events := by
  fun_induction failure? events <;> simp_all [secured, delivered]

end Listing

namespace Source

open Listing

/-- The operations that the source delivers before its first failure. -/
def ready (s : Source) : List Op := if s.exhausted then [] else operations (secured s.events)

/-- The failure that the source meets before the end of its program. -/
def failure? (s : Source) : Option IoError :=
  if s.exhausted then none else Listing.failure? s.events

variable {s : Source} {op : Op} {rest : List Op} {error : IoError}

theorem unfailing_iff : s.Unfailing ↔ s.failure? = none := by
  unfold Source.Unfailing failure?
  cases s.exhausted <;> simp [Listing.unfailing_iff]

theorem ready_of_unfailing (h : s.failure? = none) : s.ready = s.remaining := by
  unfold ready remaining failure? at *
  cases hexhausted : s.exhausted with
  | true => rfl
  | false =>
    simp only [hexhausted, Bool.false_eq_true, if_false] at h ⊢
    rw [secured_of_unfailing h]

/-- One operation is taken off what the source has before it. -/
structure Yields (op : Op) (s s' : Source) : Prop where
  ready : s.ready = op :: s'.ready
  remaining : s.remaining = op :: s'.remaining
  failure : s'.failure? = s.failure?

theorem scan_ready {events : List ReadEvent} (offset : Nat)
    (h : operations (secured events) = op :: rest) :
    (scan events offset).1 = .ok (some op) ∧
      Yields op ⟨events, offset, false⟩ (scan events offset).2 := by
  fun_induction scan events offset with
  | case1 | case2 | case4 => simp [secured, operations] at h
  | case3 tail offset ih =>
    obtain ⟨hfirst, hready, hremaining, hfailure⟩ := ih h
    exact ⟨hfirst, hready, hremaining, hfailure⟩
  | case5 value tail offset fetched hop =>
    simp only [secured, operations, List.filterMap_cons, hop, List.cons.injEq] at h
    obtain ⟨rfl, -⟩ := h
    refine ⟨rfl, ?_, ?_, rfl⟩
    · simp [Source.ready, secured, operations, hop]
    · simp [Source.remaining, delivered, operations, hop]
  | case6 value tail offset hop ih =>
    have htail : operations (secured tail) = op :: rest := by
      simpa [secured, operations, hop] using h
    obtain ⟨hfirst, hready, hremaining, hfailure⟩ := ih htail
    refine ⟨hfirst, ?_, ?_, hfailure⟩
    · rw [← hready]
      simp [Source.ready, secured, operations, hop]
    · rw [← hremaining]
      simp [Source.remaining, delivered, operations, hop]

/-- With nothing left before a failure, reading on meets the failure or the end. -/
theorem scan_spent {events : List ReadEvent} (offset : Nat)
    (h : operations (secured events) = []) :
    (scan events offset).1 = match Listing.failure? events with
      | some error => .error (.unavailable .program error)
      | none => .ok none := by
  fun_induction scan events offset with
  | case1 | case2 | case4 => rfl
  | case3 tail offset ih => exact ih h
  | case5 value tail offset fetched hop => simp [secured, operations, hop] at h
  | case6 value tail offset hop ih =>
    refine ih ?_
    simpa [secured, operations, hop] using h

theorem next_ready (h : s.ready = op :: rest) :
    s.next.1 = .ok (some op) ∧ Yields op s s.next.2 := by
  obtain ⟨events, offset, exhausted⟩ := s
  cases exhausted with
  | true => simp [ready] at h
  | false => exact scan_ready offset h

theorem next_spent (h : s.ready = []) :
    s.next.1 = match s.failure? with
      | some error => .error (.unavailable .program error)
      | none => .ok none := by
  obtain ⟨events, offset, exhausted⟩ := s
  cases exhausted with
  | true => rfl
  | false => exact scan_spent offset h

end Source

namespace Machine

/-- The operations before the machine that come before any failure. -/
def ready (m : Machine) : List Op := m.unread ++ m.source.ready

variable {m m' m'' : Machine} {op : Op} {rest first second : List Op} {error : IoError}

theorem length_unread (m : Machine) :
    m.unread.length = m.recording.ops.size - m.recording.cursor := by
  rw [unread, List.length_drop, Array.length_toList]

theorem unread_of_empty (h : m.recording.ops = #[]) : m.unread = [] := by
  simp [unread, h]

theorem ready_of_unfailing (h : m.source.failure? = none) : m.ready = m.upcoming := by
  rw [ready, upcoming, Source.ready_of_unfailing h]

/-- What the fetches of operations do to the recording and to the source. Nothing else of the two
machines is compared. -/
structure Delivers (ops : List Op) (m m' : Machine) : Prop where
  cursor_le : m'.recording.cursor ≤ m'.recording.ops.size
  ready : m.ready = ops ++ m'.ready
  upcoming : m.upcoming = ops ++ m'.upcoming
  failure : m'.source.failure? = m.source.failure?
  unrecorded : m.recording.ops = #[] → m'.recording = m.recording
  /-- Only what lies beyond the end of the recording is added to it. -/
  recorded : m.recording.ops ≠ #[] → m'.recording.cursor = m.recording.cursor + ops.length ∧
    m'.recording.ops.toList = m.recording.ops.toList ++ ops.drop m.unread.length
  replayed : ops.length ≤ m.unread.length → m'.source = m.source

theorem delivers_nil (h : m.recording.cursor ≤ m.recording.ops.size) : Delivers [] m m where
  cursor_le := h
  ready := rfl
  upcoming := rfl
  failure := rfl
  unrecorded _ := rfl
  recorded _ := by simp
  replayed _ := rfl

theorem Delivers.length_unread (h : Delivers first m m') :
    m'.unread.length = m.unread.length - first.length := by
  by_cases hinactive : m.recording.ops = #[]
  · rw [unread_of_empty hinactive, unread_of_empty (by rw [h.unrecorded hinactive, hinactive]),
      List.length_nil, Nat.zero_sub]
  · obtain ⟨hcursor, hops⟩ := h.recorded hinactive
    have hsize := congrArg List.length hops
    have hunread := m.length_unread
    rw [List.length_append, List.length_drop, Array.length_toList, Array.length_toList] at hsize
    have hle := h.cursor_le
    rw [Machine.length_unread, hcursor]
    omega

theorem Delivers.trans (h : Delivers first m m') (h' : Delivers second m' m'') :
    Delivers (first ++ second) m m'' where
  cursor_le := h'.cursor_le
  ready := by rw [h.ready, h'.ready, List.append_assoc]
  upcoming := by rw [h.upcoming, h'.upcoming, List.append_assoc]
  failure := h'.failure.trans h.failure
  unrecorded hinactive := by
    have hbetween := h.unrecorded hinactive
    exact (h'.unrecorded (by rw [hbetween, hinactive])).trans hbetween
  recorded hactive := by
    obtain ⟨hcursor, hops⟩ := h.recorded hactive
    have hactive' : m'.recording.ops ≠ #[] := by
      intro hnil
      rw [hnil] at hops
      simp [hactive] at hops
    obtain ⟨hcursor', hops'⟩ := h'.recorded hactive'
    refine ⟨?_, ?_⟩
    · rw [hcursor', hcursor, List.length_append, Nat.add_assoc]
    · rw [hops', hops, h.length_unread, List.drop_append, List.append_assoc]
  replayed hle := by
    rw [List.length_append] at hle
    have hunread := h.length_unread
    exact (h'.replayed (by omega)).trans (h.replayed (by omega))

/-- What is made of the operations otherwise does not matter. -/
theorem Delivers.of_same (h : Delivers first m m') (hrecording : m''.recording = m'.recording)
    (hsource : m''.source = m'.source) : Delivers first m m'' := by
  have hunread : m''.unread = m'.unread := by rw [unread, unread, hrecording]
  have hready : m''.ready = m'.ready := by rw [Machine.ready, Machine.ready, hunread, hsource]
  have hupcoming : m''.upcoming = m'.upcoming := by
    rw [Machine.upcoming, Machine.upcoming, hunread, hsource]
  refine ⟨?_, hready ▸ h.ready, hupcoming ▸ h.upcoming, ?_, ?_, ?_, ?_⟩
  · rw [hrecording]
    exact h.cursor_le
  · rw [hsource]
    exact h.failure
  · rw [hrecording]
    exact h.unrecorded
  · rw [hrecording]
    exact h.recorded
  · rw [hsource]
    exact h.replayed

theorem Delivers.isPrefix_ready (h : Delivers first m m') (hready : first ++ second <+: m.ready) :
    second <+: m'.ready := by
  rwa [h.ready, List.prefix_append_right_inj] at hready

theorem unread_of_lt (h : m.recording.cursor < m.recording.ops.size) :
    m.unread = m.recording.ops[m.recording.cursor] ::
      m.recording.ops.toList.drop (m.recording.cursor + 1) := by
  rw [unread, List.drop_eq_getElem_cons (by simpa using h), Array.getElem_toList]

theorem unread_of_size_le (h : m.recording.ops.size ≤ m.recording.cursor) : m.unread = [] := by
  rw [unread, List.drop_of_length_le (by simpa using h)]

/-- An operation that the source delivers is recorded, if anything is. -/
theorem delivers_live (hunread : m.unread = []) (hunread' : m'.unread = [])
    (hyields : Source.Yields op m.source m'.source)
    (hcursor : m'.recording.cursor ≤ m'.recording.ops.size)
    (hunrecorded : m.recording.ops = #[] → m'.recording = m.recording)
    (hrecorded : m.recording.ops ≠ #[] → m'.recording.cursor = m.recording.cursor + 1 ∧
      m'.recording.ops = m.recording.ops.push op) : Delivers [op] m m' where
  cursor_le := hcursor
  ready := by
    rw [ready, ready, hunread, hunread', hyields.ready]
    rfl
  upcoming := by
    rw [upcoming, upcoming, hunread, hunread', hyields.remaining]
    rfl
  failure := hyields.failure
  unrecorded := hunrecorded
  recorded hactive := by
    obtain ⟨hnext, hops⟩ := hrecorded hactive
    refine ⟨hnext, ?_⟩
    rw [hops, hunread, Array.toList_push]
    rfl
  replayed hle := by simp [hunread] at hle

/-- The next operation is fetched, from the recording as long as that has one. -/
theorem fetch_ready (hcursor : m.recording.cursor ≤ m.recording.ops.size)
    (h : m.ready = op :: rest) :
    m.fetch.1 = .ok (some op) ∧ Delivers [op] m m.fetch.2 := by
  by_cases hlt : m.recording.cursor < m.recording.ops.size
  · have hactive : m.recording.ops ≠ #[] := Array.size_pos_iff.mp (by omega)
    have hunread := unread_of_lt hlt
    rw [ready, hunread, List.cons_append, List.cons.injEq] at h
    rw [fetch_of_lt hlt]
    refine ⟨by rw [h.1], hlt, ?_, ?_, rfl, fun hnil => absurd hnil hactive, fun _ => ⟨rfl, ?_⟩,
      fun _ => rfl⟩
    · rw [ready, hunread, h.1]
      rfl
    · rw [upcoming, hunread, h.1]
      rfl
    · rw [hunread, List.length_cons, List.drop_of_length_le (by simp), List.append_nil]
  have hend : m.recording.cursor = m.recording.ops.size := by omega
  have hunread := unread_of_size_le (Nat.le_of_eq hend.symm)
  rw [ready, hunread, List.nil_append] at h
  obtain ⟨hnext, hyields⟩ := Source.next_ready h
  rw [fetch_of_size_le (Nat.le_of_eq hend.symm), hnext]
  refine ⟨rfl, ?_⟩
  by_cases hinactive : m.recording.ops = #[]
  · have hnoting : m.recording.noting (.ok (some op)) = m.recording := by
      simp [Recording.noting, Recording.isActive, hinactive]
    rw [hnoting]
    exact delivers_live hunread (unread_of_empty hinactive) hyields hcursor (fun _ => rfl)
      fun hactive => absurd hinactive hactive
  · have hnoting : m.recording.noting (.ok (some op))
        = ⟨m.recording.ops.push op, m.recording.ops.size + 1⟩ := by
      simp [Recording.noting, Recording.isActive, hinactive]
    rw [hnoting]
    exact delivers_live hunread (unread_of_size_le (by simp)) hyields (by simp)
      (fun hnil => absurd hnil hinactive) fun _ => ⟨congrArg (· + 1) hend.symm, rfl⟩

/-- With nothing left before a failure, a fetch meets the failure or the end and records nothing. -/
theorem fetch_spent (h : m.ready = []) :
    m.fetch.1 = (match m.source.failure? with
      | some error => .error (.unavailable .program error)
      | none => .ok none) ∧ m.fetch.2.recording = m.recording := by
  obtain ⟨hunread, hsource⟩ := List.append_eq_nil_iff.mp h
  have hend : m.recording.ops.size ≤ m.recording.cursor := by
    have hlength := m.length_unread
    rw [hunread, List.length_nil] at hlength
    omega
  have hnext := Source.next_spent hsource
  rw [fetch_of_size_le hend, hnext]
  refine ⟨rfl, ?_⟩
  rcases m.source.failure? with _ | error <;> rfl

end Machine

end TapeMachine
