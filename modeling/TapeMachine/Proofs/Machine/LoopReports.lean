import TapeMachine.Proofs.Machine.TextIndex

/-!
# Loops reported and loops in the text

What is reported about a loop are facts about the text, the same in every pass: a loop is entered at
the distance of its opening bracket from that of the top-level loop, and at its bracket depth; a
top-level loop is left with as many operations recorded as stand between its brackets, these
included. At that moment the recording has been passed to its end and the source stands just behind
the closing bracket, so nothing that was read is lost with the recording.
-/

namespace TapeMachine.Machine

open Brackets Listing

/-- Nothing has been read, or an operation has been read last. -/
def EndsWithOp (read : List ReadEvent) : Prop :=
  read = [] ∨ ∃ front op, read = front ++ [.byte (Op.byte op)]

/-- A loop is entered whose opening bracket stands at an index of the text. -/
structure EntersText (ops : List Op) (index position depth : Nat) : Prop where
  opens : ops[index]? = some .loopOpen
  /-- The brackets open behind the opening bracket, which is one of them. -/
  depth : depthFrom 0 (ops.take (index + 1)) = some depth
  position : ∃ outer, TopLevelLoop ops outer index ∧ outer + position = index

/-- A top-level loop is left whose closing bracket stands at an index of the text. -/
structure LeavesText (program : List ReadEvent) (index recorded : Nat) (m : Machine) : Prop where
  closes : m.fetch.1 = .ok (some .loopClose)
  size_eq : m.fetch.2.recording.size = recorded
  /-- All of the recording has been passed. -/
  cursor_eq : m.fetch.2.recording.cursor = recorded
  loop : ∃ outer, Balanced ((operations (delivered program)).take outer) ∧
    (outer, index) ∈ partners (operations (delivered program)) ∧ outer + recorded = index + 1
  /-- The closing bracket is the last that was read. -/
  behind : ∃ front, Flowing front ∧
    program = front ++ .byte Op.loopClose.byte :: m.step.machine.source.events ∧
    operations (delivered front) = (operations (delivered program)).take index ∧
    m.step.machine.source.offset = (delivered front).length + 1

/-- What the reports of a run say about its loops. -/
structure ReportsText (program : List ReadEvent) (start : Machine) : Prop where
  enters : ∀ made position depth,
    .enterLoop position depth ∈ (start.after made).step.events →
      EntersText (operations (delivered program))
        (textIndex (operations (delivered program)) start made) position depth
  /-- Every time that a bracket is executed to enter its loop, the same is reported. -/
  again : ∀ made made' position position' depth depth',
    .enterLoop position depth ∈ (start.after made).step.events →
      .enterLoop position' depth' ∈ (start.after made').step.events →
      textIndex (operations (delivered program)) start made
        = textIndex (operations (delivered program)) start made' →
      position = position' ∧ depth = depth'
  entered : ∀ count, (start.after count).mode ≠ .halted →
    (start.eventsOf count).countP Event.entersLoop
      = (start.after count).loops.depth + (start.dispatchedOps count).count .loopClose
  leaves : ∀ made recorded, .leaveLoop recorded ∈ (start.after made).step.events →
    LeavesText program (textIndex (operations (delivered program)) start made) recorded
      (start.after made)

variable {program read read' : List ReadEvent} {before : List Op} {op : Op}
  {depth count position recorded : Nat} {start m : Machine}

/-- The index of a bracket determines what is reported of it. -/
theorem EntersText.unique {ops : List Op} {index position' depth' : Nat}
    (h : EntersText ops index position depth) (h' : EntersText ops index position' depth') :
    position = position' ∧ depth = depth' := by
  obtain ⟨outer, htop, hposition⟩ := h.position
  obtain ⟨outer', htop', hposition'⟩ := h'.position
  have houter := htop.unique htop'
  exact ⟨by omega, Option.some.inj (h.depth.symm.trans h'.depth)⟩

theorem readsOn_unique {s : Source} (h : s.ReadsOn program read) (h' : s.ReadsOn program read') :
    read = read' :=
  List.append_cancel_right (h.split.symm.trans h'.split)

/-- A fetch reads to the end of an operation, if it reads at all. -/
theorem Follows.endsWithOp_fetch (h : Follows program read before depth m) (hread : EndsWithOp read)
    (hfetch : m.fetch.1 = .ok (some op)) (hreads : m.fetch.2.source.ReadsOn program read') :
    EndsWithOp read' := by
  by_cases hlt : m.recording.cursor < m.recording.ops.size
  · rw [fetch_of_lt hlt] at hreads
    rwa [← readsOn_unique h.reads hreads]
  · rw [fetch_of_size_le (Nat.le_of_not_lt hlt)] at hfetch hreads
    dsimp only at hfetch hreads
    obtain ⟨front, -, -, hcases⟩ := h.reads.next_cases
    rcases hcases with ⟨fetched, -, hnext⟩ | ⟨hnone, -⟩ | ⟨error, herror, -⟩
    · exact Or.inr ⟨front, fetched, readsOn_unique hreads hnext⟩
    · simp [hfetch] at hnone
    · simp [hfetch] at herror

/-- As long as a machine goes on, the last that it has read is an operation. -/
theorem endsWithOp_of_mode (config : Config) (program input : List ReadEvent) (sink : Sink)
    (count : Nat) (h : ((initial config program input sink).after count).mode ≠ .halted)
    (hreads : ((initial config program input sink).after count).source.ReadsOn program read) :
    EndsWithOp read := by
  induction count generalizing read with
  | zero => exact Or.inl (readsOn_unique hreads (Source.readsOn_ofEvents program))
  | succ count ih =>
    rw [after_succ_eq_step] at h hreads
    have hgoes := mode_ne_halted_of_step h
    obtain ⟨earlier, before, depth, hf⟩ :=
      followsAfter_of_mode config program input sink count hgoes
    obtain ⟨op, hfetch⟩ := exists_fetched_of_goes h
    rw [source_step hgoes] at hreads
    exact hf.endsWithOp_fetch (ih hgoes hf.reads) hfetch hreads

theorem StandsAt.entersText (h : StandsAt program start count read before depth m)
    {entered : Nat} (hreport : .enterLoop position entered ∈ m.step.events) :
    EntersText (operations (delivered program))
      (textIndex (operations (delivered program)) start count) position entered := by
  obtain ⟨hexecuted, -, hdepth, hposition⟩ := mem_enterLoop hreport
  obtain ⟨outside, hat⟩ := h.executesAt hexecuted
  have hlength := hat.length_before
  refine ⟨hat.getElem?_eq, ?_, ?_⟩
  · have hloops : m.fetch.2.loops = m.loops := loops_counted m
    rw [hat.take_succ, depthFrom_concat hat.fetched.depth_eq, hloops, hdepth]
    rfl
  · rcases hposition with ⟨hactive, hposition⟩ | ⟨hinactive, rfl⟩
    · have hcursor := (hat.fetched.inside hactive).2.2.1
      refine ⟨outside.length, hat.topLevelLoop hactive, ?_⟩
      rw [hposition, Recording.lastPosition]
      omega
    · exact ⟨_, ⟨hat.getElem?_eq, hat.balanced hinactive, Nat.le_refl _,
        fun place hlt hle => by omega⟩, rfl⟩

theorem StandsAt.leavesText (h : StandsAt program start count read before depth m)
    (hread : EndsWithOp read) (hreport : .leaveLoop recorded ∈ m.step.events) :
    LeavesText program (textIndex (operations (delivered program)) start count) recorded m := by
  obtain ⟨hexecuted, -, hsize, position, hloops⟩ := mem_leaveLoop hreport
  have hfetch := (executed?_eq_some_iff.mp hexecuted).2
  obtain ⟨outside, hat⟩ := h.executesAt hexecuted
  have hlength := hat.length_before
  have hfetched : m.fetch.2.loops.positions.toList = [] ++ [position] := by
    rw [fetch_same]
    exact hloops
  have hactive := hat.fetched.recording_active hfetched
  have hcursor := (hat.fetched.represents_finish hfetched).2
  have hbalanced := hat.fetched.depth_close hfetched
  rw [hat.fetched.passed_eq, ← hat.take_succ] at hbalanced
  have htop := hat.topLevelLoop hactive
  refine ⟨hfetch, hsize.symm, hcursor.trans hsize.symm,
    ⟨_, htop.balanced, htop.mem_partners hat.getElem?_eq hbalanced, ?_⟩, ?_⟩
  · rw [hsize, Recording.size, ← hcursor]
    exact hlength
  -- All that has been read are the operations up to the bracket, which is the last of them.
  obtain ⟨read', hreads, hdelivered⟩ := hat.reads
  have hall : operations (delivered read')
      = (operations (delivered program)).take
        (textIndex (operations (delivered program)) start count) ++ [.loopClose] := by
    rw [hdelivered, ← hat.fetched.passed_eq, passed_of_size_le outside (Nat.le_of_eq hcursor.symm)]
  rcases h.endsWithOp_fetch hread hfetch hreads with rfl | ⟨front, last, rfl⟩
  · simp [delivered, operations] at hall
  · have hflow : Flowing front := fun e he => hreads.flowing e (List.mem_append_left _ he)
    have hlast : operations (delivered [.byte last.byte]) = [last] := by
      simp [delivered, operations]
    rw [delivered_append hflow, operations_append, hlast] at hall
    obtain ⟨hfront, hclose⟩ := List.append_inj' hall rfl
    obtain rfl : last = .loopClose := List.head_eq_of_cons_eq hclose
    have hgoes : m.mode ≠ .halted := h.mode_ne_halted
    have hsource := source_step hgoes
    refine ⟨front, hflow, ?_, hfront, ?_⟩
    · rw [hsource, hreads.split, List.append_assoc]
      rfl
    · rw [hsource, hreads.offset, delivered_append hflow, List.length_append]
      rfl

/-- Whatever is reported of a loop is a fact of the text. -/
theorem reportsText_initial (config : Config) (program input : List ReadEvent) (sink : Sink) :
    ReportsText program (initial config program input sink) := by
  have hstands := standsAt_of_mode config program input sink
  have henters : ∀ made position depth, .enterLoop position depth
      ∈ ((initial config program input sink).after made).step.events →
      EntersText (operations (delivered program)) (textIndex (operations (delivered program))
        (initial config program input sink) made) position depth := by
    intro made position depth hreport
    have hexecuted := (mem_enterLoop hreport).1
    obtain ⟨read, before, depth, hat⟩ :=
      hstands made (by simp [(executed?_eq_some_iff.mp hexecuted).1])
    exact hat.entersText hreport
  refine ⟨henters, fun made made' position position' depth depth' hreport hreport' hindex => ?_,
    fun count hgoes => ?_, fun made recorded hreport => ?_⟩
  · have hfirst := henters made position depth hreport
    rw [hindex] at hfirst
    exact hfirst.unique (henters made' position' depth' hreport')
  · have hdepth := depth_after hgoes
    exact (Nat.zero_add _).symm.trans hdepth
  · have hexecuted := (mem_leaveLoop hreport).1
    have hgoes : ((initial config program input sink).after made).mode ≠ .halted := by
      simp [(executed?_eq_some_iff.mp hexecuted).1]
    obtain ⟨read, before, depth, hat⟩ := hstands made hgoes
    exact hat.leavesText
      (endsWithOp_of_mode config program input sink made hgoes hat.reads) hreport

/-- The inner one of two loops is entered, and later the outer one is left. -/
theorem reportsText_nested :
    .enterLoop 3 2 ∈ ((initial { tapeSize := 3 } ([43, 91, 62, 43, 91, 45, 93, 60, 45, 93].map .byte)
        [] .accepting).after 4).step.events ∧
      EntersText [.increment, .loopOpen, .right, .increment, .loopOpen, .decrement, .loopClose,
        .left, .decrement, .loopClose] 4 3 2 ∧
      .leaveLoop 9 ∈ ((initial { tapeSize := 3 }
        ([43, 91, 62, 43, 91, 45, 93, 60, 45, 93].map .byte) [] .accepting).after 9).step.events ∧
      LeavesText ([43, 91, 62, 43, 91, 45, 93, 60, 45, 93].map .byte) 9 9
        ((initial { tapeSize := 3 } ([43, 91, 62, 43, 91, 45, 93, 60, 45, 93].map .byte) []
          .accepting).after 9) := by
  have hreports := reportsText_initial { tapeSize := 3 }
    ([43, 91, 62, 43, 91, 45, 93, 60, 45, 93].map .byte) [] .accepting
  have henters : .enterLoop 3 2 ∈ ((initial { tapeSize := 3 }
      ([43, 91, 62, 43, 91, 45, 93, 60, 45, 93].map .byte) [] .accepting).after 4).step.events := by
    decide
  have hleaves : .leaveLoop 9 ∈ ((initial { tapeSize := 3 }
      ([43, 91, 62, 43, 91, 45, 93, 60, 45, 93].map .byte) [] .accepting).after 9).step.events := by
    decide
  exact ⟨henters, hreports.enters 4 3 2 henters, hleaves, hreports.leaves 9 9 hleaves⟩

end TapeMachine.Machine
