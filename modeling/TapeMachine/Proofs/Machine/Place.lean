import TapeMachine.Proofs.Brackets.Insertion
import TapeMachine.Proofs.Machine.Unfailing
import TapeMachine.Proofs.Machine.UnmatchedClose
import TapeMachine.Proofs.Machine.Untouched

/-!
# Where a machine stands in its text

For a text without read failures the course of a machine is determined by the operations that it has
passed, the depth at which it skips, and its data. What the next step does to these is told here for
each kind of operation, without a word about recordings and stacks.
-/

namespace TapeMachine

/-- What a machine works on, and what is seen of its work. -/
structure Data where
  config : Config
  tape : Tape
  input : List ReadEvent
  sink : Sink
  outputBytes : Nat
  unclosedLoops : Nat

namespace Machine

open Brackets Listing

def data (m : Machine) : Data :=
  ⟨m.config, m.tape, m.input, m.sink, m.outputBytes, m.unclosedLoops⟩

variable {text : List UInt8} {front rest body : List Op} {op : Op} {depth : Nat} {m m' : Machine}

theorem tape_of_data (h : m.data = m'.data) : m.tape = m'.tape := congrArg Data.tape h

/-- What an operation that is no bracket does depends on the data, and is done to the data. -/
theorem execute_congr (hp : Plain op) (h : m.data = m'.data) :
    (m.execute op).fault = (m'.execute op).fault ∧
      (m.execute op).machine.data = (m'.execute op).machine.data := by
  obtain ⟨config, _, input, sink, tape, _, _, _, _, outputBytes, unclosedLoops⟩ := m
  obtain ⟨_, _, _, _, _, _, _, _, _, _, _⟩ := m'
  obtain ⟨rfl, rfl, rfl, rfl, rfl, rfl⟩ := Data.mk.inj h
  cases op with
  | increment | decrement => exact ⟨rfl, rfl⟩
  | right | left =>
    simp only [execute, moveCursor]
    rcases tape.move _ with ⟨_ | _, _⟩ <;> exact ⟨rfl, rfl⟩
  | input =>
    simp only [execute, readInput]
    rcases readByte input with ⟨_ | _, _⟩ <;> exact ⟨rfl, rfl⟩
  | output =>
    simp only [execute, writeOutput]
    rcases sink.put tape.current with ⟨_ | _, _⟩ <;> exact ⟨rfl, rfl⟩
  | loopOpen => exact absurd rfl hp.1
  | loopClose => exact absurd rfl hp.2

theorem data_enterLoop (m : Machine) : m.enterLoop.machine.data = m.data := by
  rw [enterLoop_same]
  rfl

theorem data_closeLoop (m : Machine) : m.closeLoop.machine.data = m.data := by
  rw [closeLoop_same]
  rfl

theorem SkipsTo.data (h : SkipsTo m m') : m'.data = m.data := by
  rw [SkipsTo] at h
  rw [h]
  rfl

/-- A machine that goes on has passed so many operations of its text, and skips at a depth. What it
skips it has not entered, so its cell is zero then. -/
structure Stands (text : List UInt8) (front : List Op) (depth : Nat) (m : Machine) : Prop where
  follows : ∃ read before, Follows (text.map .byte) read before depth m ∧ m.passed before = front
  cell : depth ≠ 0 → m.tape.current = 0

theorem stands_initial (config : Config) (text : List UInt8) (input : List ReadEvent)
    (sink : Sink) : Stands text [] 0 (initial config (text.map .byte) input sink) where
  follows := ⟨[], [], follows_initial config (text.map .byte) input sink, rfl⟩
  cell hne := absurd rfl hne

theorem Stands.mode (h : Stands text front depth m) : m.mode = .within depth := by
  obtain ⟨_, _, hf, -⟩ := h.follows
  exact hf.mode

theorem Stands.goes (h : Stands text front depth m) : m.mode ≠ .halted := by
  obtain ⟨_, _, hf, -⟩ := h.follows
  exact hf.toRepresents.mode_ne_halted

theorem Stands.isPrefix (h : Stands text front depth m) : front <+: operations text := by
  obtain ⟨read, before, hf, rfl⟩ := h.follows
  have hprefix := isPrefix_passed hf.reads hf.delivered_eq
  rwa [delivered_bytes] at hprefix

/-- The fault of an unmatched bracket is that of the first one of the text. -/
theorem Stands.firstUnmatched {offset : Nat} (h : Stands text front depth m)
    (hfault : m.step.fault = some (.unmatchedClose offset)) : FirstUnmatched text offset := by
  obtain ⟨read, before, hf, -⟩ := h.follows
  rcases hf.step_cases with ⟨hnone, -⟩ | ⟨hnone, -⟩ | ⟨fault, hsome, hover⟩
  · rw [hnone] at hfault
    simp at hfault
  · rw [hnone] at hfault
    simp at hfault
  · rw [hsome] at hfault
    have hfirst := (hover offset (Option.some.inj hfault)).firstUnmatched.2
    rwa [delivered_bytes] at hfirst

/-- The end of the text is met, with so many brackets left open. -/
theorem Stands.ends (h : Stands text front depth m) (hall : operations text = front) :
    m.step.fault = none ∧ m.step.machine.mode = .halted ∧
      m.step.machine.data = { m.data with unclosedLoops := (openPositions front).length } := by
  obtain ⟨read, before, hf, rfl⟩ := h.follows
  obtain ⟨hfault, hends⟩ := hf.ends (unfailing_bytes text) (by rw [delivered_bytes]; exact hall)
  obtain ⟨source, hstep⟩ := hends.eq_ended
  refine ⟨hfault, by rw [hstep]; rfl, ?_⟩
  rw [hstep, length_openPositions hf.depth_eq]
  rfl

/-- The operation that a machine has fetched and counted, and now executes. -/
structure Performs (front : List Op) (op : Op) (m m' : Machine) : Prop where
  fetched : ∃ before, Fetched before front op 0 m'
  fetch : m.fetch.1 = .ok (some op)
  data : m'.data = m.data
  mode : m'.mode = .running
  fault : m.step.fault = (m'.execute op).fault
  machine : m.step.machine = (m'.execute op).machine

theorem Performs.loops (h : Performs front op m m') :
    m'.loops.positions = #[] ↔ openPositions front = [] := by
  obtain ⟨before, hf⟩ := h.fetched
  rw [← hf.opened_eq, List.map_eq_nil_iff, Array.toList_eq_nil_iff]

section Next

variable (hnext : operations text = front ++ op :: rest)

include hnext

theorem Stands.skips (h : Stands text front (depth + 1) m) :
    Stands text (front ++ [op]) (depthAfter (depth + 1) op) m.step.machine ∧
      m.step.machine.data = m.data := by
  obtain ⟨read, before, hf, rfl⟩ := h.follows
  obtain ⟨read', before', hf', hpassed, hskips⟩ :=
    hf.skip_next (unfailing_bytes text) (by rw [delivered_bytes]; exact hnext)
  refine ⟨⟨⟨read', before', hf', hpassed⟩, fun _ => ?_⟩, hskips.data⟩
  rw [tape_of_data hskips.data]
  exact h.cell (Nat.succ_ne_zero depth)

theorem Stands.performs (h : Stands text front 0 m) : ∃ m', Performs front op m m' := by
  obtain ⟨read, before, hf, rfl⟩ := h.follows
  obtain ⟨fetched, read', before', hfetch, hfetches⟩ :=
    hf.fetch_next (unfailing_bytes text) (by rw [delivered_bytes]; exact hnext)
  have hstep := (step_of_running hf.mode).trans (executeNext_of_op hfetch)
  refine ⟨{ fetched with steps := fetched.steps + 1 },
    ⟨before', hfetches.fetched.counted (fetched.steps + 1)⟩, by rw [hfetch], ?_,
    hfetches.fetched.mode, by rw [hstep], by rw [hstep]⟩
  rw [hfetches.same]
  rfl

/-- A step that neither fails nor jumps back passes the operation. -/
theorem Stands.passes {after : Nat} (h : Stands text front 0 m) (hp : Performs front op m m')
    (hfault : m.step.fault = none) (hmode : m.step.machine.mode = .within after)
    (hjump : op = .loopClose → m.tape.current = 0)
    (hcell : after ≠ 0 → m.step.machine.tape.current = 0) :
    Stands text (front ++ [op]) after m.step.machine := by
  obtain ⟨read, before, hf, rfl⟩ := h.follows
  obtain ⟨read', before', depth', hadvances⟩ :=
    hf.advances_next (by rw [delivered_bytes]; exact hnext) hfault
  obtain rfl := within_injective (hadvances.follows.mode.symm.trans hmode)
  refine ⟨⟨read', before', hadvances.follows, hadvances.on op hp.fetch fun hback => ?_⟩, hcell⟩
  have hcloses := hback.closes
  rw [hp.fetch, Except.ok.injEq, Option.some.injEq] at hcloses
  exact hback.cell (hjump hcloses)

/-- An operation that is no bracket is passed unless it fails. -/
theorem Stands.plain (h : Stands text front 0 m) (hplain : Plain op) :
    ∃ m' : Machine, m'.data = m.data ∧ m.step.fault = (m'.execute op).fault ∧
      m.step.machine = (m'.execute op).machine ∧
      (m.step.fault = none → Stands text (front ++ [op]) 0 m.step.machine) := by
  obtain ⟨m', hp⟩ := h.performs hnext
  refine ⟨m', hp.data, hp.fault, hp.machine, fun hfault => ?_⟩
  have hmode : m.step.machine.mode = .within 0 := by
    rw [hp.machine]
    rw [hp.fault] at hfault
    exact ((keeps_execute hplain m').mode hfault).trans hp.mode
  exact h.passes hnext hp hfault hmode (fun hclose => absurd hclose hplain.2)
    fun hne => absurd rfl hne

end Next

theorem Stands.opens (h : Stands text front 0 m)
    (hnext : operations text = front ++ .loopOpen :: rest) :
    Stands text (front ++ [.loopOpen]) (if m.tape.current = 0 then 1 else 0) m.step.machine ∧
      m.step.machine.data = m.data := by
  obtain ⟨m', hp⟩ := h.performs hnext
  have hdata : m.step.machine.data = m.data := by
    rw [hp.machine, execute, data_enterLoop, hp.data]
  have htape := tape_of_data hdata
  have hfault : m.step.fault = none := by rw [hp.fault, execute, enterLoop_fault]
  refine ⟨?_, hdata⟩
  split
  · next hcell =>
    have hcell' : m'.tape.current = 0 := by rw [tape_of_data hp.data, hcell]
    refine h.passes hnext hp hfault ?_ (fun heq => by simp at heq) fun _ => by rw [htape, hcell]
    rw [hp.machine, execute, enterLoop_of_zero hcell']
    rfl
  · next hcell =>
    have hcell' : m'.tape.current ≠ 0 := by rwa [tape_of_data hp.data]
    refine h.passes hnext hp hfault ?_ (fun heq => by simp at heq) fun hne => absurd rfl hne
    rw [hp.machine, execute, mode_enterLoop hcell', hp.mode]
    rfl

section Closing

variable (hnext : operations text = front ++ .loopClose :: rest)

include hnext

/-- A loop is left, or begun once more at its opening bracket. -/
theorem Stands.closes {below : List Nat} {opening : Nat} (h : Stands text front 0 m)
    (hopen : openPositions front = below ++ [opening]) :
    Stands text (if m.tape.current = 0 then front ++ [.loopClose] else front.take opening) 0
        m.step.machine ∧ m.step.machine.data = m.data := by
  obtain ⟨m', hp⟩ := h.performs hnext
  have hloops : m'.loops.positions ≠ #[] := by
    rw [ne_eq, hp.loops, hopen]
    simp
  have hfault : m.step.fault = none := by
    obtain ⟨before, hf⟩ := hp.fetched
    rw [hp.fault]
    exact (hf.execute_close hloops).1
  have hdata : m.step.machine.data = m.data := by
    rw [hp.machine, execute, data_closeLoop, hp.data]
  have hmode : m.step.machine.mode = .within 0 := by
    rw [hp.fault] at hfault
    rw [hp.machine]
    exact (mode_closeLoop hfault).trans hp.mode
  refine ⟨?_, hdata⟩
  split
  · next hcell =>
    exact h.passes hnext hp hfault hmode (fun _ => hcell) fun hne => absurd rfl hne
  · next hcell =>
    obtain ⟨read, before, hf, rfl⟩ := h.follows
    obtain ⟨read', before', depth', hadvances⟩ :=
      hf.advances_next (by rw [delivered_bytes]; exact hnext) hfault
    obtain rfl := within_injective (hadvances.follows.mode.symm.trans hmode)
    obtain ⟨below', opening', hopen', hpassed⟩ := hadvances.jump ⟨hf.mode, hp.fetch, hcell⟩
    obtain rfl := innermost_unique hopen hopen'
    exact ⟨⟨read', before', hadvances.follows, hpassed⟩, fun hne => absurd rfl hne⟩

/-- A closing bracket outside every loop is the first unmatched one. -/
theorem Stands.overcloses (h : Stands text front 0 m) (hopen : openPositions front = []) :
    ∃ offset, m.step.fault = some (.unmatchedClose offset) ∧ FirstUnmatched text offset ∧
      m.step.machine.data = m.data := by
  obtain ⟨m', hp⟩ := h.performs hnext
  have hfault : m.step.fault = some (.unmatchedClose (m'.source.offset - 1)) := by
    rw [hp.fault, execute, closeLoop_of_empty (hp.loops.mpr hopen)]
    rfl
  refine ⟨_, hfault, h.firstUnmatched hfault, ?_⟩
  rw [hp.machine, execute, data_closeLoop, hp.data]

end Closing

/-- What never closes the loop that is skipped is passed over. -/
theorem Stands.skips_all {final : Nat} (h : Stands text front (depth + 1) m)
    (hnext : operations text = front ++ (body ++ rest)) (hbody : depthFrom depth body = some final) :
    ∃ count, Stands text (front ++ body) (final + 1) (m.after count) ∧
      (m.after count).data = m.data := by
  obtain ⟨read, before, hf, rfl⟩ := h.follows
  obtain ⟨read', before', hf', hpassed, hskips⟩ :=
    hf.skip_run (unfailing_bytes text) (by rw [delivered_bytes]; exact hnext) hbody
  refine ⟨body.length, ⟨⟨read', before', hf', hpassed⟩, fun _ => ?_⟩, hskips.data⟩
  rw [tape_of_data hskips.data]
  exact h.cell (Nat.succ_ne_zero depth)

/-- A balanced loop is passed over on a zero cell, whether it is skipped with another or not. -/
theorem Stands.passes_over (h : Stands text front depth m) (hcell : m.tape.current = 0)
    (hbody : Balanced body) (hnext : operations text = front ++ (enclose body ++ rest)) :
    ∃ count, Stands text (front ++ enclose body) depth (m.after count) ∧
      (m.after count).data = m.data := by
  cases depth with
  | succ depth => exact h.skips_all hnext (hbody.enclose.depthFrom depth)
  | zero =>
    have hopening : operations text = front ++ .loopOpen :: (body ++ .loopClose :: rest) := by
      simpa [enclose] using hnext
    obtain ⟨h₁, hdata₁⟩ := h.opens hopening
    rw [if_pos hcell] at h₁
    have hinside : operations text = front ++ [.loopOpen] ++ (body ++ .loopClose :: rest) := by
      simpa using hopening
    obtain ⟨count, h₂, hdata₂⟩ := h₁.skips_all hinside hbody
    obtain ⟨h₃, hdata₃⟩ := h₂.skips (by rw [hinside, List.append_assoc _ body])
    rw [← after_succ_eq_step, ← after_succ] at h₃ hdata₃
    refine ⟨count + 1 + 1, ?_, hdata₃.trans (hdata₂.trans hdata₁)⟩
    rwa [List.append_assoc, List.append_assoc] at h₃

end Machine

end TapeMachine
