import TapeMachine.Proofs.Machine.Defined
import TapeMachine.Proofs.Machine.Failing
import TapeMachine.Proofs.Machine.StepReports
import TapeMachine.Proofs.Tape.Ends

/-!
# Moves past an end of the tape

Boundaries differ only in what they make of a move past an end of the tape. Up to the first such
move machines with different boundaries do the same, step by step. The move itself ends the run of a
strict machine, and every other boundary resolves it at the same operation and on the same cell.
-/

namespace TapeMachine

/-- The operation that moves the cursor in the direction. -/
def Direction.op : Direction → Op
  | left => .left
  | right => .right

def Fault.isOutOfBounds : Fault → Bool
  | outOfBounds .. => true
  | _ => false

namespace Machine

/-- The machine with another boundary of its tape. -/
def withBoundary (boundary : Boundary) (m : Machine) : Machine :=
  { m with
    config := { m.config with boundary := boundary }
    tape := m.tape.withBoundary boundary }

/-- The next step fails with a move past an end of the tape. -/
def LeavesTape (m : Machine) : Prop := m.step.fault.any Fault.isOutOfBounds = true

instance (m : Machine) : Decidable m.LeavesTape :=
  inferInstanceAs (Decidable (m.step.fault.any Fault.isOutOfBounds = true))

end Machine

def Step.withBoundary (boundary : Boundary) (s : Step) : Step :=
  ⟨s.machine.withBoundary boundary, s.fault, s.events⟩

namespace Machine

variable {m : Machine} {op : Op} {direction : Direction} {boundary : Boundary}

theorem leavesTape_iff : m.LeavesTape ↔
    ∃ cursor size direction, m.step.fault = some (.outOfBounds cursor size direction) := by
  unfold LeavesTape
  rcases m.step.fault with _ | fault
  · simp
  · cases fault <;> simp [Fault.isOutOfBounds]

theorem fetch_withBoundary (boundary : Boundary) (m : Machine) :
    (m.withBoundary boundary).fetch = (m.fetch.1, m.fetch.2.withBoundary boundary) := by
  have hrecording : (m.withBoundary boundary).recording = m.recording := rfl
  have hsource : (m.withBoundary boundary).source = m.source := rfl
  unfold fetch
  rw [hrecording, hsource]
  split <;> rfl

theorem moveCursor_withBoundary (hstrict : m.tape.boundary = .strict)
    (h : (m.moveCursor direction).fault = none) (boundary : Boundary) :
    (m.withBoundary boundary).moveCursor direction
      = (m.moveCursor direction).withBoundary boundary := by
  have htape : (m.withBoundary boundary).tape = m.tape.withBoundary boundary := rfl
  rcases hmove : m.tape.move direction with ⟨fault | _, tape⟩
  · simp [moveCursor, hmove, Step.failed] at h
  · have hother := Tape.move_withBoundary hstrict (congrArg Prod.fst hmove) boundary
    simp only [moveCursor, htape, hother, hmove]
    rfl

theorem readInput_withBoundary (boundary : Boundary) (m : Machine) :
    (m.withBoundary boundary).readInput = m.readInput.withBoundary boundary := by
  have hinput : (m.withBoundary boundary).input = m.input := rfl
  unfold readInput
  rw [hinput]
  rcases readByte m.input with ⟨_ | _, input⟩ <;> rfl

theorem writeOutput_withBoundary (boundary : Boundary) (m : Machine) :
    (m.withBoundary boundary).writeOutput = m.writeOutput.withBoundary boundary := by
  have hput : (m.withBoundary boundary).sink.put (m.withBoundary boundary).tape.current
      = m.sink.put m.tape.current := rfl
  unfold writeOutput
  rw [hput]
  rcases m.sink.put m.tape.current with ⟨_ | _, sink⟩ <;> rfl

theorem enterLoop_withBoundary (boundary : Boundary) (m : Machine) :
    (m.withBoundary boundary).enterLoop = m.enterLoop.withBoundary boundary := by
  have hcurrent : (m.withBoundary boundary).tape.current = m.tape.current := rfl
  unfold enterLoop
  rw [hcurrent]
  split <;> rfl

theorem closeLoop_withBoundary (boundary : Boundary) (m : Machine) :
    (m.withBoundary boundary).closeLoop = m.closeLoop.withBoundary boundary := by
  have hloops : (m.withBoundary boundary).loops = m.loops := rfl
  have hcurrent : (m.withBoundary boundary).tape.current = m.tape.current := rfl
  unfold closeLoop
  rw [hloops]
  rcases m.loops.pop with ⟨_ | position, loops⟩
  · rfl
  · dsimp only
    rw [hcurrent]
    split
    · rfl
    · split <;> rfl

theorem execute_withBoundary (hstrict : m.tape.boundary = .strict)
    (h : ∀ cursor size direction,
      (m.execute op).fault ≠ some (.outOfBounds cursor size direction))
    (boundary : Boundary) :
    (m.withBoundary boundary).execute op = (m.execute op).withBoundary boundary := by
  have hmoved : ∀ direction, m.execute op = m.moveCursor direction →
      (m.moveCursor direction).fault = none := by
    intro direction hexecute
    cases hfault : (m.moveCursor direction).fault with
    | none => rfl
    | some fault =>
      rw [hexecute, hfault] at h
      rcases hmove : m.tape.move direction with ⟨refusal | _, tape⟩
      · have hrefusal := Tape.move_error (congrArg Prod.fst hmove)
        rw [hmove, Prod.mk.injEq, Except.error.injEq] at hrefusal
        simp only [moveCursor, hmove, Step.failed, Option.some.injEq] at hfault
        rw [← hfault, hrefusal.1] at h
        exact absurd rfl (h _ _ _)
      · simp [moveCursor, hmove, Step.quiet] at hfault
  cases op with
  | increment | decrement => rfl
  | right => exact moveCursor_withBoundary hstrict (hmoved .right rfl) boundary
  | left => exact moveCursor_withBoundary hstrict (hmoved .left rfl) boundary
  | input => exact readInput_withBoundary boundary m
  | output => exact writeOutput_withBoundary boundary m
  | loopOpen => exact enterLoop_withBoundary boundary m
  | loopClose => exact closeLoop_withBoundary boundary m

/-- A step that stays on a strict tape is the same with every other boundary. -/
theorem step_withBoundary (hstrict : m.tape.boundary = .strict) (h : ¬m.LeavesTape)
    (boundary : Boundary) :
    (m.withBoundary boundary).step = m.step.withBoundary boundary := by
  have hmode : (m.withBoundary boundary).mode = m.mode := rfl
  have htape := tape_fetch m
  rw [leavesTape_iff] at h
  unfold step executeNext skipNext at h ⊢
  rw [hmode, fetch_withBoundary]
  cases hm : m.mode with
  | halted => rfl
  | skipping depth => rcases m.fetch with ⟨_ | _ | op, m'⟩ <;> rfl
  | running =>
    rcases hfetch : m.fetch with ⟨fault | _ | op, m'⟩
    · rfl
    · rfl
    · rw [hfetch] at htape
      have hcounted : { m' with steps := m'.steps + 1 }.tape.boundary = .strict := by
        dsimp only at htape ⊢
        rw [htape, hstrict]
      have hexecute : ({ m' with steps := m'.steps + 1 }.withBoundary boundary).execute op = _ :=
        execute_withBoundary hcounted
          (fun cursor size direction hfault => h ⟨cursor, size, direction, by simpa [hm, hfetch]⟩)
          boundary
      exact congrArg (fun s : Step => { s with events := m'.dispatched op :: s.events }) hexecute

theorem boundary_execute (op : Op) (m : Machine) :
    (m.execute op).machine.tape.boundary = m.tape.boundary := by
  have hmove : ∀ direction,
      (m.moveCursor direction).machine.tape.boundary = m.tape.boundary := by
    intro direction
    have hboundary := Tape.boundary_move direction m.tape
    unfold moveCursor
    rcases hresult : m.tape.move direction with ⟨_ | _, tape⟩
    all_goals
      rw [hresult] at hboundary
      exact hboundary
  cases op with
  | increment | decrement => rfl
  | right => exact hmove .right
  | left => exact hmove .left
  | input =>
    simp only [execute, readInput]
    split <;> rfl
  | output =>
    simp only [execute, writeOutput]
    split <;> rfl
  | loopOpen => rw [execute, enterLoop_same]
  | loopClose => rw [execute, closeLoop_same]

/-- A tape keeps its boundary. -/
theorem boundary_step (m : Machine) : m.step.machine.tape.boundary = m.tape.boundary := by
  cases hexecuted : m.executed? with
  | none => rw [(idles_of_unexecuted hexecuted).same]
  | some op =>
    rw [step_of_executed hexecuted]
    dsimp only
    rw [boundary_execute, tape_counted]

theorem boundary_after (count : Nat) (m : Machine) :
    (m.after count).tape.boundary = m.tape.boundary := by
  induction count with
  | zero => rfl
  | succ count ih => rw [after_succ_eq_step, boundary_step, ih]

/-- Up to the first move past an end, a strict machine does what one with another boundary does. -/
theorem after_withBoundary {count : Nat} (hstrict : m.tape.boundary = .strict)
    (h : ∀ made < count, ¬(m.after made).LeavesTape) (boundary : Boundary) :
    (m.withBoundary boundary).after count = (m.after count).withBoundary boundary := by
  induction count with
  | zero => rfl
  | succ count ih =>
    have hbefore := ih fun made hlt => h made (Nat.lt_succ_of_lt hlt)
    have hstep := step_withBoundary ((boundary_after count m).trans hstrict)
      (h count (Nat.lt_succ_self count)) boundary
    rw [after_succ_eq_step, after_succ_eq_step, hbefore, hstep]
    rfl

theorem inBounds_after (h : m.tape.InBounds) (count : Nat) : (m.after count).tape.InBounds := by
  induction count with
  | zero => exact h
  | succ count ih =>
    rw [after_succ_eq_step]
    exact inBounds_step ih

/-- A step that moves the cursor. -/
theorem step_of_move (h : m.executed? = some direction.op) :
    m.step.machine.tape = (m.tape.move direction).2 ∧
      m.step.events = [m.fetch.2.dispatched direction.op] ∧
      ((m.tape.move direction).1 = .ok () → m.step.fault = none) ∧
      ∀ fault, (m.tape.move direction).1 = .error fault → m.step.fault = some fault := by
  have hexecute : m.counted.execute direction.op = m.counted.moveCursor direction := by
    cases direction <;> rfl
  rw [step_of_executed h, hexecute]
  simp only [moveCursor, tape_counted]
  rcases m.tape.move direction with ⟨fault | _, tape⟩
  · exact ⟨rfl, rfl, fun h => by simp at h, fun _ h => congrArg some (Except.error.inj h)⟩
  · exact ⟨rfl, rfl, fun _ => rfl, fun _ h => by simp at h⟩

/-- Only a move leads past an end of the tape. -/
theorem exists_direction {cursor size : Nat} {towards : Direction}
    (h : (m.execute op).fault = some (.outOfBounds cursor size towards)) :
    ∃ direction, op = Direction.op direction := by
  generalize hfault : Fault.outOfBounds cursor size towards = fault at h
  cases canFail_of_fault h with
  | right => exact ⟨.right, rfl⟩
  | left => exact ⟨.left, rfl⟩
  | input error | output error | loopClose => simp at hfault

theorem move_of_outOfBounds {cursor size : Nat}
    (h : m.step.fault = some (.outOfBounds cursor size direction)) :
    m.mode = .running ∧ m.fetch.1 = .ok (some direction.op) ∧
      (m.tape.move direction).1 = .error (m.tape.refusal direction) := by
  rcases fault_cases h with ⟨hfetch, -⟩ | ⟨op, hmode, hfetch, hexecute, -⟩
  · obtain ⟨error, herror⟩ := fetch_error hfetch
    simp at herror
  · obtain ⟨towards, rfl⟩ := exists_direction hexecute
    obtain ⟨-, -, hok, herror⟩ := step_of_move (executed?_eq_some_iff.mpr ⟨hmode, hfetch⟩)
    cases hmove : (m.tape.move towards).1 with
    | ok done =>
      rw [hok hmove] at h
      simp at h
    | error fault =>
      obtain rfl : fault = m.tape.refusal towards :=
        Except.error.inj (hmove.symm.trans (congrArg Prod.fst (Tape.move_error hmove)))
      rw [herror _ hmove, Tape.refusal, Option.some.injEq, Fault.outOfBounds.injEq] at h
      obtain ⟨-, -, rfl⟩ := h
      exact ⟨hmode, hfetch, hmove⟩

/-- Two machines come to the same move past an end of the same tape. The first one refuses it, and
the second one makes of it what its boundary says. -/
structure Excursion (boundary : Boundary) (direction : Direction) (m m' : Machine) : Prop where
  mode : m.mode = .running ∧ m'.mode = .running
  op : m.fetch.1 = .ok (some direction.op) ∧ m'.fetch.1 = .ok (some direction.op)
  cells : m'.tape.cells = m.tape.cells
  cursor : m'.tape.cursor = m.tape.cursor
  atEnd : m.tape.AtEnd direction
  refused : m.step.fault = some (m.tape.refusal direction)
  events : m'.step.events = m.step.events
  wrap : boundary = .wrap → m'.step.fault = none ∧
    m'.step.machine.tape = { m'.tape with cursor := m.tape.farEnd direction }
  clamp : boundary = .clamp → m'.step.fault = none ∧ m'.step.machine.tape = m'.tape
  growRight_right : boundary = .growRight → direction = .right → m'.step.fault = none ∧
    m'.step.machine.tape
      = { m'.tape with cells := m'.tape.cells.push 0, cursor := m'.tape.cursor + 1 }
  growRight_left : boundary = .growRight → direction = .left →
    m'.step.fault = m.step.fault ∧ m'.step.machine.tape = m'.tape

theorem excursion_of_outOfBounds {cursor size : Nat} (hbounds : m.tape.InBounds)
    (h : m.step.fault = some (.outOfBounds cursor size direction)) (boundary : Boundary) :
    Excursion boundary direction m (m.withBoundary boundary) := by
  obtain ⟨hmode, hfetch, hmove⟩ := move_of_outOfBounds h
  obtain ⟨-, hevents, -, hrefused⟩ := step_of_move (executed?_eq_some_iff.mpr ⟨hmode, hfetch⟩)
  have hatEnd := Tape.atEnd_of_refused hbounds hmove
  have hmode' : (m.withBoundary boundary).mode = .running := hmode
  have hfetch' : (m.withBoundary boundary).fetch.1 = .ok (some direction.op) := by
    rw [fetch_withBoundary]
    exact hfetch
  have hatEnd' : (m.withBoundary boundary).tape.AtEnd direction := by
    cases direction <;> exact hatEnd
  obtain ⟨htape, hevents', hok, herror⟩ :=
    step_of_move (executed?_eq_some_iff.mpr ⟨hmode', hfetch'⟩)
  refine ⟨⟨hmode, hmode'⟩, ⟨hfetch, hfetch'⟩, rfl, rfl, hatEnd, hrefused _ hmove,
    ?_, ?_, ?_, ?_, ?_⟩
  · rw [hevents, hevents', fetch_withBoundary]
    rfl
  · intro hboundary
    have hresolved := Tape.move_wrap (t := (m.withBoundary boundary).tape) hboundary hatEnd'
    rw [htape, hresolved]
    refine ⟨hok (by rw [hresolved]), ?_⟩
    cases direction <;> rfl
  · intro hboundary
    have hresolved := Tape.move_clamp (t := (m.withBoundary boundary).tape) hboundary hatEnd'
    rw [htape, hresolved]
    exact ⟨hok (by rw [hresolved]), rfl⟩
  · rintro hboundary rfl
    have hresolved :=
      Tape.move_growRight_right (t := (m.withBoundary boundary).tape) hboundary hatEnd'
    rw [htape, hresolved]
    exact ⟨hok (by rw [hresolved]), rfl⟩
  · rintro hboundary rfl
    have hresolved :=
      Tape.move_growRight_left (t := (m.withBoundary boundary).tape) hboundary hatEnd'
    rw [htape, hresolved, hrefused _ hmove]
    exact ⟨herror _ (by rw [hresolved]; rfl), rfl⟩

/-- Machines whose configurations differ in the boundary alone do the same until the strict one
leaves its tape. It does so with a move that the other one makes as well, by its own boundary. -/
theorem agrees_until_excursion {config : Config} {program input : List ReadEvent} {sink : Sink}
    (hstart : start { config with boundary := .strict } program input sink = .ok m) {count : Nat}
    (h : ∀ made < count, ¬(m.after made).LeavesTape) (boundary : Boundary) :
    ∃ m', start { config with boundary := boundary } program input sink = .ok m' ∧
      (∀ made ≤ count, m'.after made = (m.after made).withBoundary boundary) ∧
      (∀ made < count, (m'.after made).step.fault = (m.after made).step.fault ∧
        (m'.after made).step.events = (m.after made).step.events) ∧
      ((m.after count).LeavesTape →
        ∃ direction, Excursion boundary direction (m.after count) (m'.after count)) := by
  obtain ⟨hvalid, rfl⟩ := start_eq_ok_iff.mp hstart
  generalize hm : initial { config with boundary := .strict } program input sink = m at h
  have hstrict : m.tape.boundary = .strict := by
    rw [← hm]
    rfl
  have hbounds : m.tape.InBounds := by
    rw [← hm]
    exact Tape.inBounds_blank .strict hvalid
  have hsame : ∀ made ≤ count,
      (m.withBoundary boundary).after made = (m.after made).withBoundary boundary :=
    fun made hle => after_withBoundary hstrict
      (fun earlier hlt => h earlier (Nat.lt_of_lt_of_le hlt hle)) boundary
  refine ⟨m.withBoundary boundary, ?_, hsame, fun made hlt => ?_, fun hleaves => ?_⟩
  · rw [start_eq_ok_iff, ← hm]
    exact ⟨hvalid, rfl⟩
  · rw [hsame made (Nat.le_of_lt hlt), step_withBoundary ((boundary_after made m).trans hstrict)
      (h made hlt)]
    exact ⟨rfl, rfl⟩
  · obtain ⟨cursor, size, direction, hfault⟩ := leavesTape_iff.mp hleaves
    rw [hsame count (Nat.le_refl count)]
    exact ⟨direction, excursion_of_outOfBounds (inBounds_after hbounds count) hfault boundary⟩

/-- In the second pass through a loop the tape is left on the right, and grows instead. -/
theorem agrees_until_excursion_loop :
    start { tapeSize := 3, boundary := .strict } ([43, 91, 62, 43, 93].map .byte) [] .accepting
        = .ok (initial { tapeSize := 3, boundary := .strict } ([43, 91, 62, 43, 93].map .byte) []
          .accepting) ∧
      (∀ made < 6, ¬((initial { tapeSize := 3, boundary := .strict }
        ([43, 91, 62, 43, 93].map .byte) [] .accepting).after made).LeavesTape) ∧
      ((initial { tapeSize := 3, boundary := .strict } ([43, 91, 62, 43, 93].map .byte) []
        .accepting).after 6).LeavesTape ∧
      ∃ direction, Excursion .growRight direction
        ((initial { tapeSize := 3, boundary := .strict } ([43, 91, 62, 43, 93].map .byte) []
          .accepting).after 6)
        ((initial { tapeSize := 3, boundary := .growRight } ([43, 91, 62, 43, 93].map .byte) []
          .accepting).after 6) := by
  have hstays : ∀ made < 6, ¬((initial { tapeSize := 3, boundary := .strict }
      ([43, 91, 62, 43, 93].map .byte) [] .accepting).after made).LeavesTape := by decide
  have hleaves : ((initial { tapeSize := 3, boundary := .strict } ([43, 91, 62, 43, 93].map .byte)
      [] .accepting).after 6).LeavesTape := by decide
  obtain ⟨m', hother, -, -, hexcursion⟩ := @agrees_until_excursion _ { tapeSize := 3 }
    ([43, 91, 62, 43, 93].map .byte) [] .accepting rfl 6 hstays .growRight
  obtain ⟨-, rfl⟩ := start_eq_ok_iff.mp hother
  exact ⟨rfl, hstays, hleaves, hexcursion hleaves⟩

end Machine

end TapeMachine
