import TapeMachine.Proofs.Machine.Representation
import TapeMachine.Proofs.Machine.Unfailing
import TapeMachine.Proofs.Resident.Agreement
import TapeMachine.Proofs.Resident.Listing

/-!
# The machine simulates the evaluator

A machine mirrors an evaluator of the same text when they agree on the data and the machine has
passed as many operations as the position of the evaluator tells. One operation of the evaluator
takes a machine one step or more: a jump to a partner passes over the operations between, and a jump
back stops at the opening bracket, which the machine executes again.
-/

namespace TapeMachine

/-- The next operation is a closing bracket that leads back to its partner. -/
def Resident.jumpsBack (r : Resident) : Bool :=
  match r.listing.ops[r.position]? with
  | some (_, .loopClose) => (r.listing.opening? r.position).isSome && r.tape.current != 0
  | _ => false

namespace Machine

open Brackets Listing

variable {text : List UInt8} {read : List ReadEvent} {before rest body : List Op} {op : Op}
  {depth : Nat} {m m' : Machine} {r : Resident}

/-- The machine stands where the evaluator stands. It is skipping only if an unclosed loop has led
it to the end of the program. -/
structure Mirrors (text : List UInt8) (m : Machine) (r : Resident) : Prop where
  agrees : m.Agrees r
  listing : r.listing = .ofText text
  follows : ∃ read before depth, Follows (text.map .byte) read before depth m ∧
    (m.passed before).length = r.position ∧ (depth = 0 ∨ operations text = m.passed before)

/-- The next step of the machine is its last, and it ends as the evaluator does. -/
structure Finishes (text : List UInt8) (m : Machine) (r : Resident) (fault : Option Fault) :
    Prop where
  goes : m.mode ≠ .halted
  halts : m.step.machine.mode = .halted
  outcome : m.step.fault = fault
  agrees : m.step.machine.Agrees r
  steps : m.step.machine.steps = m.steps + fault.isSome.toNat
  ended : fault = none → m.step.machine.source.offset = text.length ∧
    m.step.machine.unclosedLoops + closings text = openings text

/-- One operation of the evaluator is some steps of the machine, after which the machine mirrors it
again, or the last step. -/
def Matches (text : List UInt8) (m : Machine) (r : Resident) : Prop :=
  (∃ r' count, r.step = .next r' ∧ Mirrors text (m.after (count + 1)) r' ∧
      (m.after (count + 1)).steps = m.steps + 1 + r.jumpsBack.toNat) ∨
    ∃ r' fault, r.step = .stop r' fault ∧ Finishes text m r' fault

theorem Matches.single {r' : Resident} (hr : r.step = .next r')
    (h : Mirrors text m.step.machine r')
    (hsteps : m.step.machine.steps = m.steps + 1 + r.jumpsBack.toNat) : Matches text m r :=
  Or.inl ⟨r', 0, hr, h, hsteps⟩

theorem jumpsBack_of_ne {offset : Nat} (hop : r.listing.ops[r.position]? = some (offset, op))
    (hne : op ≠ .loopClose) : r.jumpsBack = false := by
  rw [Resident.jumpsBack, hop]
  cases op <;> first | rfl | exact absurd rfl hne

theorem finishes_of_fault {fault : Fault} (hfails : m.step.fault = some fault)
    (hagrees : m.step.machine.Agrees r) (hsteps : m.step.machine.steps = m.steps + 1) :
    Finishes text m r (some fault) where
  goes := mode_ne_halted_of_fault hfails
  halts := mode_of_fault hfails
  outcome := hfails
  agrees := hagrees
  steps := hsteps
  ended hnone := by simp at hnone

/-- The evaluator stops at the end of the program, and the machine meets it. -/
theorem Mirrors.finishes (h : Mirrors text m r)
    (hf : Follows (text.map .byte) read before depth m) (hall : operations text = m.passed before)
    (hposition : (m.passed before).length = r.position) :
    r.step = .stop r none ∧ Finishes text m r none := by
  have hop : r.listing.ops[r.position]? = none := by
    rw [h.listing, ← hposition, ← hall]
    exact located_end text
  refine ⟨by rw [Resident.step, hop], ?_⟩
  obtain ⟨hfault, hends⟩ := hf.ends (unfailing_bytes text) (by rw [delivered_bytes]; exact hall)
  obtain ⟨source, hstep⟩ := hends.eq_ended
  have hoffset := hends.offset
  rw [delivered_bytes] at hoffset
  have hdepth := hf.depth_eq
  rw [← hall] at hdepth
  refine ⟨hf.toRepresents.mode_ne_halted, by rw [hstep]; rfl, hfault, ?_, by rw [hstep]; rfl,
    fun _ => ⟨hoffset, ?_⟩⟩
  · rw [hstep]
    exact h.agrees.of_eq rfl rfl rfl rfl rfl
  · rw [hstep]
    exact (neverOverclosed_of_depth hdepth).2

/-- The machine has before it the operation at the position of the evaluator. -/
structure Faces (text : List UInt8) (read : List ReadEvent) (before : List Op) (op : Op)
    (rest : List Op) (m : Machine) (r : Resident) : Prop
    extends Follows (text.map .byte) read before 0 m where
  position : (m.passed before).length = r.position
  next : operations text = m.passed before ++ op :: rest

/-- The next step of the machine executes an operation that it has fetched and counted. -/
structure Handles (text : List UInt8) (read : List ReadEvent) (before : List Op) (op : Op)
    (m m' : Machine) (r : Resident) : Prop where
  fetch : ∃ fetched read' before', m.fetch = (.ok (some op), fetched) ∧
    Fetches (text.map .byte) read before op 0 m fetched read' before' ∧
    m' = { fetched with steps := fetched.steps + 1 }
  fault : m.step.fault = (m'.execute op).fault
  machine : m.step.machine = (m'.execute op).machine
  agrees : m'.Agrees r
  steps : m'.steps = m.steps + 1
  mode : m'.mode = .running
  located : ∃ offset, r.listing.ops[r.position]? = some (offset, op)

theorem Faces.delivered (ha : Faces text read before op rest m r) :
    operations (delivered (text.map .byte)) = m.passed before ++ op :: rest := by
  rw [delivered_bytes, ha.next]

theorem Mirrors.handles (h : Mirrors text m r) (ha : Faces text read before op rest m r) :
    ∃ m', Handles text read before op m m' r := by
  obtain ⟨fetched, read', before', hfetch, hf⟩ := ha.fetch_next (unfailing_bytes text) ha.delivered
  have hstep := (step_of_running ha.mode).trans (executeNext_of_op hfetch)
  refine ⟨_, ⟨fetched, read', before', hfetch, hf, rfl⟩, by rw [hstep], by rw [hstep], ?_, ?_,
    hf.fetched.mode, ?_⟩
  · rw [hf.same]
    exact h.agrees.of_eq rfl rfl rfl rfl rfl
  · rw [hf.same]
  · rw [h.listing, ← ha.position]
    exact exists_located ha.next

/-- A step that does not fail and does not jump back passes the next operation. -/
theorem Faces.passes {after : Nat} (ha : Faces text read before op rest m r)
    (hh : Handles text read before op m m' r) (hjump : ¬m.JumpsBack)
    (hfault : (m'.execute op).fault = none)
    (hmode : (m'.execute op).machine.mode = .within after) :
    ∃ read' before', Follows (text.map .byte) read' before' after m.step.machine ∧
      m.step.machine.passed before' = m.passed before ++ [op] := by
  rw [← hh.fault] at hfault
  rw [← hh.machine] at hmode
  obtain ⟨fetched, _, _, hfetch, -⟩ := hh.fetch
  obtain ⟨read', before', depth', hadvances⟩ := ha.advances_next ha.delivered hfault
  obtain rfl := within_injective (hadvances.follows.mode.symm.trans hmode)
  exact ⟨read', before', hadvances.follows, hadvances.on op (by rw [hfetch]) hjump⟩

theorem Handles.not_jumpsBack (hh : Handles text read before op m m' r) (hop : op ≠ .loopClose) :
    ¬m.JumpsBack := by
  intro hjump
  obtain ⟨fetched, _, _, hfetch, -⟩ := hh.fetch
  have hcloses := hjump.closes
  rw [hfetch, Except.ok.injEq, Option.some.injEq] at hcloses
  exact hop hcloses

/-- An operation that is no bracket is executed by both. -/
theorem Mirrors.plain (h : Mirrors text m r) (ha : Faces text read before op rest m r)
    (hp : Plain op) : Matches text m r := by
  obtain ⟨m', hh⟩ := h.handles ha
  obtain ⟨offset, hop⟩ := hh.located
  have hkeeps := keeps_execute hp m'
  have hsteps : m.step.machine.steps = m.steps + 1 := by
    rw [hh.machine, hkeeps.steps, hh.steps]
  rcases hh.agrees.execute hp hop with ⟨hfault, r', hr, hposition, hlisting, hr'⟩ |
    ⟨fault, hfault, r', hr, hr'⟩
  · obtain ⟨read', before', hfollows, hpassed⟩ := @Faces.passes _ _ _ _ _ _ _ _ 0 ha hh
      (hh.not_jumpsBack hp.2) hfault ((hkeeps.mode hfault).trans hh.mode)
    refine Matches.single hr ⟨?_, hlisting.trans h.listing, read', before', 0, hfollows, ?_,
      Or.inl rfl⟩ ?_
    · rw [hh.machine]
      exact hr'
    · rw [hpassed, hposition, List.length_append, ha.position]
      rfl
    · rw [hsteps, jumpsBack_of_ne hop hp.2]
      rfl
  · have hfails : m.step.fault = some fault := hh.fault.trans hfault
    refine Or.inr ⟨r', some fault, hr, finishes_of_fault hfails ?_ hsteps⟩
    rw [hh.machine]
    exact hr'

/-- A loop is entered by both. -/
theorem Mirrors.enters (h : Mirrors text m r) (ha : Faces text read before .loopOpen rest m r)
    (hcell : r.tape.current ≠ 0) :
    r.step = .next { r with position := r.position + 1 } ∧
      Mirrors text m.step.machine { r with position := r.position + 1 } ∧
      m.step.machine.steps = m.steps + 1 := by
  obtain ⟨m', hh⟩ := h.handles ha
  obtain ⟨offset, hop⟩ := hh.located
  have hcell' : m'.tape.current ≠ 0 := by rwa [hh.agrees.tape]
  obtain ⟨read', before', hfollows, hpassed⟩ := @Faces.passes _ _ _ _ _ _ _ _ 0 ha hh
    (hh.not_jumpsBack (by decide)) (enterLoop_fault m') ((mode_enterLoop hcell').trans hh.mode)
  refine ⟨?_, ⟨?_, h.listing, read', before', 0, hfollows, ?_, Or.inl rfl⟩, ?_⟩
  · rw [Resident.step, hop]
    exact if_pos hcell
  · rw [hh.machine]
    exact hh.agrees.enterLoop.moved _
  · rw [hpassed, List.length_append, ha.position]
    rfl
  · rw [hh.machine, execute, enterLoop_same]
    exact hh.steps

theorem SkipsTo.agrees (h : SkipsTo m m') (ha : m.Agrees r) : m'.Agrees r := by
  rw [SkipsTo] at h
  rw [h]
  exact ha.of_eq rfl rfl rfl rfl rfl

theorem SkipsTo.steps (h : SkipsTo m m') : m'.steps = m.steps := by
  rw [SkipsTo] at h
  rw [h]

end Machine

end TapeMachine
