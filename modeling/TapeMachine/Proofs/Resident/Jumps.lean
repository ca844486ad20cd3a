import TapeMachine.Proofs.Resident.Simulation

/-!
# Jumps between partners

The evaluator jumps where the machine passes over operations, or goes back to an opening bracket and
executes it once more. A closing bracket without a partner stops both, with the offset of its byte.
-/

namespace TapeMachine.Machine

open Brackets Listing

variable {text : List UInt8} {read read' : List ReadEvent} {before before' rest body : List Op}
  {op : Op} {m m' : Machine} {r : Resident}

/-- The first step of a machine that does not enter a loop. -/
theorem Mirrors.skips (h : Mirrors text m r) (ha : Faces text read before .loopOpen rest m r)
    (hcell : r.tape.current = 0) :
    r.step = r.enterLoop ∧ m.step.machine.Agrees r ∧ m.step.machine.steps = m.steps + 1 ∧
      ∃ read' before', Follows (text.map .byte) read' before' 1 m.step.machine ∧
        m.step.machine.passed before' = m.passed before ++ [.loopOpen] := by
  obtain ⟨m', hh⟩ := h.handles ha
  obtain ⟨offset, hop⟩ := hh.located
  have hcell' : m'.tape.current = 0 := by rw [hh.agrees.tape, hcell]
  have hmode : m'.enterLoop.machine.mode = .within 1 := by
    rw [enterLoop_of_zero hcell']
    rfl
  refine ⟨by rw [Resident.step, hop], ?_, ?_,
    ha.passes hh (hh.not_jumpsBack (by decide)) (enterLoop_fault m') hmode⟩
  · rw [hh.machine]
    exact hh.agrees.enterLoop
  · rw [hh.machine, execute, enterLoop_same]
    exact hh.steps

/-- A loop that is not entered is passed over up to its closing bracket. -/
theorem Mirrors.skips_closed {tail : List Op} (h : Mirrors text m r)
    (ha : Faces text read before .loopOpen (body ++ .loopClose :: tail) m r)
    (hcell : r.tape.current = 0) (hbody : Balanced body) :
    ∃ r' count, r.step = .next r' ∧ Mirrors text (m.after (count + 1)) r' ∧
      (m.after (count + 1)).steps = m.steps + 1 := by
  obtain ⟨hr, hagrees, hsteps, read₁, before₁, hf₁, hpassed₁⟩ := h.skips ha hcell
  have hun := unfailing_bytes text
  have hnext₁ : operations (delivered (text.map .byte))
      = m.step.machine.passed before₁ ++ (body ++ .loopClose :: tail) := by
    rw [delivered_bytes, hpassed₁, ha.next, List.append_assoc]
    rfl
  obtain ⟨read₂, before₂, hf₂, hpassed₂, hskips₂⟩ :=
    @Follows.skip_run _ _ _ _ _ 0 _ 0 hf₁ hun hnext₁ hbody
  have hnext₂ : operations (delivered (text.map .byte))
      = (m.step.machine.after body.length).passed before₂ ++ .loopClose :: tail := by
    rw [hpassed₂, hnext₁, List.append_assoc]
  obtain ⟨read₃, before₃, hf₃, hpassed₃, hskips₃⟩ := hf₂.skip_next hun hnext₂
  have hskips := hskips₂.trans hskips₃
  rw [← after_succ_eq_step, ← after_succ] at hf₃ hpassed₃ hskips
  have hclosing : r.listing.closing? r.position = some (r.position + 1 + body.length) := by
    rw [h.listing, ← ha.position]
    exact closing?_of_balanced ha.next hbody
  refine ⟨{ r with position := r.position + 1 + body.length + 1 }, body.length + 1, ?_,
    ⟨(hskips.agrees hagrees).moved _, h.listing, read₃, before₃, 0, hf₃, ?_, Or.inl rfl⟩,
    hskips.steps.trans hsteps⟩
  · rw [hr, Resident.enterLoop, if_neg (not_not.mpr hcell), hclosing]
    rfl
  · rw [hpassed₃, hpassed₂, hpassed₁]
    simp only [List.length_append, List.length_singleton, ha.position]

/-- A loop that is never closed is passed over up to the end of the program. -/
theorem Mirrors.skips_unclosed {final : Nat} (h : Mirrors text m r)
    (ha : Faces text read before .loopOpen rest m r) (hcell : r.tape.current = 0)
    (hrest : depthFrom 0 rest = some final) :
    ∃ r' count, r.step = .next r' ∧ Mirrors text (m.after (count + 1)) r' ∧
      (m.after (count + 1)).steps = m.steps + 1 := by
  obtain ⟨hr, hagrees, hsteps, read₁, before₁, hf₁, hpassed₁⟩ := h.skips ha hcell
  have hall : operations text = m.step.machine.passed before₁ ++ rest := by
    rw [hpassed₁, ha.next, List.append_assoc]
    rfl
  have hnext : operations (delivered (text.map .byte))
      = m.step.machine.passed before₁ ++ (rest ++ []) := by
    rw [delivered_bytes, List.append_nil, hall]
  obtain ⟨read₂, before₂, hf₂, hpassed₂, hskips⟩ :=
    @Follows.skip_run _ _ _ _ _ 0 _ _ hf₁ (unfailing_bytes text) hnext hrest
  rw [← after_succ] at hf₂ hpassed₂ hskips
  rw [← hall] at hpassed₂
  have hclosing : r.listing.closing? r.position = none := by
    rw [h.listing, ← ha.position]
    exact closing?_of_unclosed ha.next hrest
  refine ⟨{ r with position := r.listing.ops.length }, rest.length, ?_,
    ⟨(hskips.agrees hagrees).moved _, h.listing, read₂, before₂, final + 1, hf₂, ?_,
      Or.inr hpassed₂.symm⟩, hskips.steps.trans hsteps⟩
  · rw [hr, Resident.enterLoop, if_neg (not_not.mpr hcell), hclosing]
    rfl
  · rw [hpassed₂, h.listing]
    exact (length_located 0 text).symm

theorem Mirrors.opening (h : Mirrors text m r) (ha : Faces text read before .loopOpen rest m r) :
    Matches text m r := by
  have hjump : r.jumpsBack = false := by
    obtain ⟨m', hh⟩ := h.handles ha
    obtain ⟨offset, hop⟩ := hh.located
    exact jumpsBack_of_ne hop (by decide)
  rw [Matches, hjump]
  refine Or.inl ?_
  by_cases hcell : r.tape.current = 0
  · cases hrest : depthFrom 0 rest with
    | some final => exact h.skips_unclosed ha hcell hrest
    | none =>
      obtain ⟨body, tail, rfl, hbody⟩ := exists_unmatched hrest
      exact h.skips_closed ha hcell hbody
  · obtain ⟨hr, hmirrors, hsteps⟩ := h.enters ha hcell
    exact ⟨_, 0, hr, hmirrors, hsteps⟩

/-- Outside a recording the offset of an operation is that of the last byte consumed. -/
theorem Fetches.located (hf : Fetches (text.map .byte) read before op 0 m m' read' before')
    (hinactive : m.recording.ops = #[]) :
    (ofText text).ops[(m.passed before).length]? = some (m'.source.offset - 1, op) := by
  obtain ⟨-, -, front, hflow, hfront, hread⟩ := hf.unrecorded hinactive
  have htext : text = delivered front ++ op.byte :: delivered m'.source.events := by
    have hsplit := congrArg delivered hf.reads.split
    rw [delivered_bytes, hread, List.append_assoc, delivered_append hflow] at hsplit
    exact hsplit
  have hoffset : m'.source.offset = (delivered front).length + 1 := by
    rw [hf.reads.offset, hread, delivered_append hflow, List.length_append]
    rfl
  have hlocated := located_of_byte (delivered front) (delivered m'.source.events) op
  rw [← htext, hfront] at hlocated
  rw [passed_of_empty before hinactive, hlocated, hoffset, Nat.add_sub_cancel]

/-- A closing bracket without a partner stops both. -/
theorem Mirrors.overclosed (h : Mirrors text m r)
    (ha : Faces text read before .loopClose rest m r)
    (hopen : openPositions (m.passed before) = []) :
    ∃ fault, r.step = .stop r (some fault) ∧ Finishes text m r (some fault) := by
  obtain ⟨m', hh⟩ := h.handles ha
  obtain ⟨fetched, read', before', hfetch, hf, hm'⟩ := hh.fetch
  have hloops : fetched.loops.positions = #[] := by
    have hopened := hf.fetched.opened_eq
    rw [hopen] at hopened
    simpa using hopened
  have hinactive : fetched.recording.ops = #[] := by
    by_contra hactive
    exact absurd ((hf.fetched.inside hactive).2.2.2 hloops).2.2.1 (by decide)
  have hlocated := hf.located (hf.recording_iff.mp hinactive)
  rw [ha.position, ← h.listing] at hlocated
  have hopening : r.listing.opening? r.position = none := by
    rw [h.listing, ← ha.position]
    exact opening?_of_none ha.next hopen
  have hclose : m'.closeLoop = .failed (.unmatchedClose (fetched.source.offset - 1)) m' := by
    rw [hm']
    exact closeLoop_of_empty hloops
  have hfails : m.step.fault = some (.unmatchedClose (fetched.source.offset - 1)) := by
    rw [hh.fault, execute, hclose]
    rfl
  refine ⟨_, ?_, finishes_of_fault hfails ?_ ?_⟩
  · rw [Resident.step, hlocated]
    dsimp only
    rw [Resident.closeLoop, hopening]
  · rw [hh.machine]
    exact hh.agrees.closeLoop
  · rw [hh.machine, execute, closeLoop_same]
    exact hh.steps

section Closing

variable {below : List Nat} {opening : Nat}

/-- A closing bracket with a partner fails in neither. -/
theorem Mirrors.closes (h : Mirrors text m r) (ha : Faces text read before .loopClose rest m r)
    (hh : Handles text read before .loopClose m m' r)
    (hopen : openPositions (m.passed before) = below ++ [opening]) :
    (m'.execute .loopClose).fault = none ∧ (m'.execute .loopClose).machine.mode = .within 0 ∧
      m.step.machine.Agrees r ∧ m.step.machine.steps = m.steps + 1 ∧
      r.step = (if r.tape.current = 0 then r.advance else r.goto (opening + 1)) ∧
      r.jumpsBack = (r.tape.current != 0) := by
  obtain ⟨fetched, read', before', hfetch, hf, hm'⟩ := hh.fetch
  obtain ⟨offset, hop⟩ := hh.located
  have hloops : fetched.loops.positions ≠ #[] := by
    intro hnil
    have hopened := hf.fetched.opened_eq
    rw [hopen, hnil] at hopened
    simp at hopened
  have hfault : (m'.execute .loopClose).fault = none := by
    rw [hm']
    exact ((hf.fetched.counted (fetched.steps + 1)).execute_close hloops).1
  have hopening : r.listing.opening? r.position = some opening := by
    rw [h.listing, ← ha.position]
    exact opening?_of_open ha.next hopen
  refine ⟨hfault, (mode_closeLoop hfault).trans hh.mode, ?_, ?_, ?_, ?_⟩
  · rw [hh.machine]
    exact hh.agrees.closeLoop
  · rw [hh.machine, execute, closeLoop_same]
    exact hh.steps
  · rw [Resident.step, hop]
    dsimp only
    rw [Resident.closeLoop, hopening]
  · rw [Resident.jumpsBack, hop]
    simp [hopening]

/-- A loop is left by both. -/
theorem Mirrors.leaves (h : Mirrors text m r) (ha : Faces text read before .loopClose rest m r)
    (hopen : openPositions (m.passed before) = below ++ [opening]) (hcell : r.tape.current = 0) :
    Matches text m r := by
  obtain ⟨m', hh⟩ := h.handles ha
  obtain ⟨hfault, hmode, hagrees, hsteps, hr, hback⟩ := h.closes ha hh hopen
  have hjump : ¬m.JumpsBack := by
    intro hjump
    have hne := hjump.cell
    rw [h.agrees.tape] at hne
    exact hne hcell
  obtain ⟨read', before', hf, hpassed⟩ := ha.passes hh hjump hfault hmode
  rw [if_pos hcell] at hr
  refine Matches.single hr
    ⟨hagrees.moved _, h.listing, read', before', 0, hf, ?_, Or.inl rfl⟩ ?_
  · rw [hpassed, List.length_append, ha.position]
    rfl
  · rw [hsteps, hback, hcell]
    rfl

/-- The evaluator goes back behind the opening bracket and the machine in front of it. The bracket
is executed again, on the same cell. -/
theorem Mirrors.repeats (h : Mirrors text m r) (ha : Faces text read before .loopClose rest m r)
    (hopen : openPositions (m.passed before) = below ++ [opening]) (hcell : r.tape.current ≠ 0) :
    Matches text m r := by
  obtain ⟨m', hh⟩ := h.handles ha
  obtain ⟨hfault, hmode, hagrees, hsteps, hr, hback⟩ := h.closes ha hh hopen
  rw [← hh.fault] at hfault
  rw [← hh.machine] at hmode
  obtain ⟨read', before', depth', hadvances⟩ := ha.advances_next ha.delivered hfault
  obtain rfl := within_injective (hadvances.follows.mode.symm.trans hmode)
  obtain ⟨fetched, _, _, hfetch, -⟩ := hh.fetch
  have hjump : m.JumpsBack := ⟨ha.mode, by rw [hfetch], by rwa [h.agrees.tape]⟩
  obtain ⟨below', opening', hopen', hpassed⟩ := hadvances.jump hjump
  obtain rfl := innermost_unique hopen hopen'
  obtain ⟨hlt, hbracket, -⟩ := openPositions_split hopen
  -- The bracket that is next for the machine is the one that the evaluator has behind it.
  have hfaces : Faces text read' before' .loopOpen
      ((m.passed before).drop (opening + 1) ++ .loopClose :: rest) m.step.machine
      { r with position := opening } := by
    refine ⟨hadvances.follows, ?_, ?_⟩
    · rw [hpassed, List.length_take]
      exact Nat.min_eq_left (Nat.le_of_lt hlt)
    · have hget := (List.getElem?_eq_some_iff.mp hbracket).2
      rw [hpassed, ha.next, ← List.cons_append, ← hget, List.getElem_cons_drop,
        ← List.append_assoc, List.take_append_drop]
  have hmirrors : Mirrors text m.step.machine { r with position := opening } :=
    ⟨hagrees.moved opening, h.listing, read', before', 0, hadvances.follows, hfaces.position,
      Or.inl rfl⟩
  obtain ⟨-, hagain, hstepped⟩ := hmirrors.enters hfaces hcell
  refine Or.inl ⟨{ r with position := opening + 1 }, 1, ?_, hagain, hstepped.trans ?_⟩
  · rw [hr, if_neg hcell]
    rfl
  · rw [hsteps, hback, bne_iff_ne.mpr hcell]
    rfl

end Closing

theorem Mirrors.closing (h : Mirrors text m r)
    (ha : Faces text read before .loopClose rest m r) : Matches text m r := by
  rcases List.eq_nil_or_concat (openPositions (m.passed before)) with
    hnil | ⟨below, opening, hopen⟩
  · obtain ⟨fault, hr, hfinishes⟩ := h.overclosed ha hnil
    exact Or.inr ⟨r, some fault, hr, hfinishes⟩
  rw [List.concat_eq_append] at hopen
  by_cases hcell : r.tape.current = 0
  · exact h.leaves ha hopen hcell
  · exact h.repeats ha hopen hcell

end TapeMachine.Machine
