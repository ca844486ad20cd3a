import TapeMachine.Proofs.Machine.Anticipation
import TapeMachine.Proofs.Machine.Output

/-!
# Comments and interruptions

Some answers are passed over: comments and interrupted reads in a program, interrupted reads in an
input, interrupted writes at a sink. Two machines whose answers differ in nothing else do the same,
step by step. They differ in the number of program bytes, and so in the place of an unmatched
bracket, and in the number of write calls.
-/

namespace TapeMachine

def WriteReply.isInterrupted : WriteReply → Bool
  | interrupted => true
  | taken | refused | failure _ => false

/-- The answers that are not passed over. -/
def heeded {α : Type} (passesOver : α → Bool) (answers : List α) : List α :=
  answers.filter fun answer => !passesOver answer

section Heeded

variable {α : Type} {passesOver : α → Bool} {answer : α}

theorem heeded_of_passed (h : passesOver answer = true) (rest : List α) :
    heeded passesOver (answer :: rest) = heeded passesOver rest := by
  simp [heeded, h]

theorem heeded_of_ending (h : passesOver answer = false) (rest : List α) :
    heeded passesOver (answer :: rest) = answer :: heeded passesOver rest := by
  simp [heeded, h]

/-- Two lists of answers of which so much is left that the same has been heeded of them. -/
def ConsumedAlike (passesOver : α → Bool) (answers answers' left left' : List α) : Prop :=
  ∃ read read', answers = read ++ left ∧ answers' = read' ++ left' ∧
    heeded passesOver read = heeded passesOver read'

theorem consumedAlike_of_suffix {answers answers' left left' : List α} (hleft : left <:+ answers)
    (hleft' : left' <:+ answers') (hall : heeded passesOver answers = heeded passesOver answers')
    (h : heeded passesOver left = heeded passesOver left') :
    ConsumedAlike passesOver answers answers' left left' := by
  obtain ⟨read, rfl⟩ := hleft
  obtain ⟨read', rfl⟩ := hleft'
  refine ⟨read, read', rfl, rfl, ?_⟩
  rw [heeded, heeded, List.filter_append, List.filter_append] at hall
  rw [heeded, heeded] at h
  rw [h] at hall
  exact List.append_cancel_right hall

end Heeded

theorem readByte_heeded (input : List ReadEvent) :
    readByte (heeded ReadEvent.isInterrupted input)
      = ((readByte input).1, heeded ReadEvent.isInterrupted (readByte input).2) := by
  induction input with
  | nil => rfl
  | cons event rest ih =>
    cases event with
    | byte value | endOfStream | failure error => rw [heeded_of_ending rfl]; rfl
    | interrupted => rw [heeded_of_passed rfl]; exact ih

namespace Source

/-- Two sources that have the same before them, but for what they pass over. -/
structure HeedsAlike (s s' : Source) : Prop where
  events : heeded ReadEvent.isSilent s.events = heeded ReadEvent.isSilent s'.events
  exhausted : s.exhausted = s'.exhausted

theorem scan_heeded (events : List ReadEvent) (offset offset' : Nat) :
    (scan (heeded ReadEvent.isSilent events) offset).1 = (scan events offset').1 ∧
      (scan (heeded ReadEvent.isSilent events) offset).2.events
        = heeded ReadEvent.isSilent (scan events offset').2.events ∧
      (scan (heeded ReadEvent.isSilent events) offset).2.exhausted
        = (scan events offset').2.exhausted := by
  induction events generalizing offset' with
  | nil => exact ⟨rfl, rfl, rfl⟩
  | cons event rest ih =>
    cases event with
    | endOfStream | failure error => rw [heeded_of_ending rfl]; exact ⟨rfl, rfl, rfl⟩
    | interrupted => rw [heeded_of_passed rfl]; exact ih offset'
    | byte value =>
      cases hop : Op.ofByte? value with
      | some op =>
        rw [heeded_of_ending (by simp [ReadEvent.isSilent, hop])]
        simp only [scan, hop, and_self]
      | none =>
        rw [heeded_of_passed (by simp [ReadEvent.isSilent, hop])]
        simpa only [scan, hop] using ih (offset' + 1)

/-- What is passed over does not show in what comes next. -/
theorem HeedsAlike.next {s s' : Source} (h : s.HeedsAlike s') :
    ∃ result left left', s.next = (result, left) ∧ s'.next = (result, left') ∧
      left.HeedsAlike left' := by
  cases hended : s.exhausted with
  | true => exact ⟨.ok none, s, s', next_of_exhausted hended,
      next_of_exhausted (h.exhausted.symm.trans hended), h⟩
  | false =>
    obtain ⟨hresult, hleft, hover⟩ := scan_heeded s.events 0 s.offset
    obtain ⟨hresult', hleft', hover'⟩ := scan_heeded s'.events 0 s'.offset
    rw [h.events] at hresult hleft hover
    refine ⟨(scan s.events s.offset).1, (scan s.events s.offset).2,
      (scan s'.events s'.offset).2, ?_, ?_, hleft.symm.trans hleft', hover.symm.trans hover'⟩
    · rw [Source.next, hended]
      rfl
    · rw [Source.next, ← h.exhausted, hended, ← hresult, hresult']
      rfl

end Source

namespace Sink

/-- Two sinks that have taken the same and will answer the same, but for interruptions. -/
structure HeedsAlike (s s' : Sink) : Prop where
  writes : heeded WriteReply.isInterrupted s.writes = heeded WriteReply.isInterrupted s'.writes
  flushes : s.flushes = s'.flushes
  bytes : s.bytes = s'.bytes
  flushCalls : s.flushCalls = s'.flushCalls

theorem deliver_heeded (writes : List WriteReply) (calls calls' : Nat) :
    (deliver (heeded WriteReply.isInterrupted writes) calls).1 = (deliver writes calls').1 ∧
      (deliver (heeded WriteReply.isInterrupted writes) calls).2.1
        = heeded WriteReply.isInterrupted (deliver writes calls').2.1 := by
  induction writes generalizing calls' with
  | nil => exact ⟨rfl, rfl⟩
  | cons reply rest ih =>
    cases reply with
    | taken | refused | failure error => rw [heeded_of_ending rfl]; exact ⟨rfl, rfl⟩
    | interrupted => rw [heeded_of_passed rfl]; exact ih (calls' + 1)

variable {s s' : Sink}

theorem HeedsAlike.write (h : s.HeedsAlike s') (value : UInt8) :
    ∃ result left left', s.write value = (result, left) ∧ s'.write value = (result, left') ∧
      left.HeedsAlike left' := by
  obtain ⟨hresult, hleft⟩ := deliver_heeded s.writes 0 s.writeCalls
  obtain ⟨hresult', hleft'⟩ := deliver_heeded s'.writes 0 s'.writeCalls
  rw [h.writes, hresult'] at hresult
  rw [h.writes, hleft'] at hleft
  unfold Sink.write
  rcases hdeliver : deliver s.writes s.writeCalls with ⟨result, left, calls⟩
  rcases hdeliver' : deliver s'.writes s'.writeCalls with ⟨result', left', calls'⟩
  rw [hdeliver, hdeliver'] at hresult hleft
  obtain rfl : result' = result := hresult
  cases result' with
  | error error => exact ⟨_, _, _, rfl, rfl, hleft.symm, h.flushes, h.bytes, h.flushCalls⟩
  | ok done =>
    exact ⟨_, _, _, rfl, rfl, hleft.symm, h.flushes, congrArg (Array.push · value) h.bytes,
      h.flushCalls⟩

theorem HeedsAlike.flush (h : s.HeedsAlike s') :
    ∃ result left left', s.flush = (result, left) ∧ s'.flush = (result, left') ∧
      left.HeedsAlike left' := by
  have hcalls : s.flushCalls + 1 = s'.flushCalls + 1 := congrArg (· + 1) h.flushCalls
  unfold Sink.flush
  rw [h.flushes]
  rcases s'.flushes.head? with _ | _ | error
  all_goals exact ⟨_, _, _, rfl, rfl, h.writes, rfl, h.bytes, hcalls⟩

theorem HeedsAlike.put (h : s.HeedsAlike s') (value : UInt8) :
    ∃ result left left', s.put value = (result, left) ∧ s'.put value = (result, left') ∧
      left.HeedsAlike left' := by
  obtain ⟨result, written, written', hwrite, hwrite', hwritten⟩ := h.write value
  unfold Sink.put
  rw [hwrite, hwrite']
  cases result with
  | error error => exact ⟨_, _, _, rfl, rfl, hwritten⟩
  | ok done =>
    obtain ⟨result, flushed, flushed', hflush, hflush', hflushed⟩ := hwritten.flush
    dsimp only
    rw [hflush, hflush']
    cases result with
    | error error | ok done => exact ⟨_, _, _, rfl, rfl, hflushed⟩

end Sink

/-- Two machines with the same before them, but for what their streams pass over. -/
inductive Machine.HeedsAlike (m : Machine) : Machine → Prop where
  | intro {source : Source} {input : List ReadEvent} {sink : Sink}
    (hsource : m.source.HeedsAlike source)
    (hinput : heeded ReadEvent.isInterrupted m.input = heeded ReadEvent.isInterrupted input)
    (hsink : m.sink.HeedsAlike sink) :
    HeedsAlike m { m with source := source, input := input, sink := sink }

/-- Two results that are the same, but for the place of an unmatched bracket. -/
def SameFault (result result' : Option Fault) : Prop :=
  result.map (Fault.relocate fun _ => 0) = result'.map (Fault.relocate fun _ => 0)

structure Step.HeedsAlike (s s' : Step) : Prop where
  machine : s.machine.HeedsAlike s'.machine
  fault : SameFault s.fault s'.fault
  events : s.events = s'.events

def Event.withoutProgramBytes : Event → Event
  | finished steps outputBytes _ => finished steps outputBytes 0
  | event => event

structure Run.HeedsAlike (r r' : Run) : Prop where
  machine : r.machine.HeedsAlike r'.machine
  fault : SameFault r.fault r'.fault
  events : r.events.map Event.withoutProgramBytes = r'.events.map Event.withoutProgramBytes

namespace Machine

variable {m m' : Machine}

theorem HeedsAlike.mode_eq (h : m.HeedsAlike m') : m'.mode = m.mode := by
  cases h
  rfl

theorem HeedsAlike.recording_eq (h : m.HeedsAlike m') : m'.recording = m.recording := by
  cases h
  rfl

theorem HeedsAlike.dispatched_eq (h : m.HeedsAlike m') (op : Op) :
    m'.dispatched op = m.dispatched op := by
  cases h
  rfl

/-- The report of a complete run gives the number of program bytes. -/
theorem HeedsAlike.closing_eq (h : m.HeedsAlike m') :
    m'.closing.withoutProgramBytes = m.closing.withoutProgramBytes := by
  cases h
  rfl

theorem HeedsAlike.fetch (h : m.HeedsAlike m') :
    ∃ result n n', m.fetch = (result, n) ∧ m'.fetch = (result, n') ∧ n.HeedsAlike n' := by
  have hrecording := h.recording_eq
  by_cases hlt : m.recording.cursor < m.recording.ops.size
  · have hlt' : m'.recording.cursor < m'.recording.ops.size := hrecording ▸ hlt
    rw [fetch_of_lt hlt, fetch_of_lt hlt']
    obtain ⟨hsource, hinput, hsink⟩ := h
    exact ⟨_, _, _, rfl, rfl, hsource, hinput, hsink⟩
  · have hle := Nat.le_of_not_lt hlt
    have hle' : m'.recording.ops.size ≤ m'.recording.cursor := hrecording ▸ hle
    rw [fetch_of_size_le hle, fetch_of_size_le hle']
    obtain ⟨hsource, hinput, hsink⟩ := h
    obtain ⟨result, left, left', hnext, hnext', hleft⟩ := hsource.next
    rw [hnext, hnext']
    exact ⟨_, _, _, rfl, rfl, hleft, hinput, hsink⟩

theorem HeedsAlike.moveCursor (h : m.HeedsAlike m') (direction : Direction) :
    (m.moveCursor direction).HeedsAlike (m'.moveCursor direction) := by
  obtain ⟨hsource, hinput, hsink⟩ := h
  unfold Machine.moveCursor
  rcases m.tape.move direction with ⟨fault | _, tape⟩
  · exact ⟨⟨hsource, hinput, hsink⟩, rfl, rfl⟩
  · exact ⟨⟨hsource, hinput, hsink⟩, rfl, rfl⟩

theorem HeedsAlike.readInput (h : m.HeedsAlike m') : m.readInput.HeedsAlike m'.readInput := by
  obtain ⟨hsource, hinput, hsink⟩ := h
  have hread := readByte_heeded m.input
  rw [hinput, readByte_heeded, Prod.mk.injEq] at hread
  obtain ⟨hresult, hleft⟩ := hread
  unfold Machine.readInput
  dsimp only
  rw [hresult]
  rcases (readByte m.input).1 with error | value
  · exact ⟨⟨hsource, hleft.symm, hsink⟩, rfl, rfl⟩
  · exact ⟨⟨hsource, hleft.symm, hsink⟩, rfl, rfl⟩

theorem HeedsAlike.writeOutput (h : m.HeedsAlike m') :
    m.writeOutput.HeedsAlike m'.writeOutput := by
  obtain ⟨hsource, hinput, hsink⟩ := h
  obtain ⟨result, left, left', hput, hput', hleft⟩ := hsink.put m.tape.current
  unfold Machine.writeOutput
  rw [hput, hput']
  rcases result with fault | done
  · exact ⟨⟨hsource, hinput, hleft⟩, rfl, rfl⟩
  · exact ⟨⟨hsource, hinput, hleft⟩, rfl, rfl⟩

theorem HeedsAlike.enterLoop (h : m.HeedsAlike m') : m.enterLoop.HeedsAlike m'.enterLoop := by
  obtain ⟨hsource, hinput, hsink⟩ := h
  unfold Machine.enterLoop
  dsimp only
  split
  · exact ⟨⟨hsource, hinput, hsink⟩, rfl, rfl⟩
  · exact ⟨⟨hsource, hinput, hsink⟩, rfl, rfl⟩

/-- Only the place of an unmatched bracket is counted in bytes. -/
theorem HeedsAlike.closeLoop (h : m.HeedsAlike m') : m.closeLoop.HeedsAlike m'.closeLoop := by
  obtain ⟨hsource, hinput, hsink⟩ := h
  unfold Machine.closeLoop
  rcases m.loops.pop with ⟨_ | position, loops⟩
  · exact ⟨⟨hsource, hinput, hsink⟩, rfl, rfl⟩
  · dsimp only
    split
    · exact ⟨⟨hsource, hinput, hsink⟩, rfl, rfl⟩
    · split
      · exact ⟨⟨hsource, hinput, hsink⟩, rfl, rfl⟩
      · exact ⟨⟨hsource, hinput, hsink⟩, rfl, rfl⟩

theorem HeedsAlike.execute (h : m.HeedsAlike m') (op : Op) :
    (m.execute op).HeedsAlike (m'.execute op) := by
  cases op with
  | increment | decrement =>
    obtain ⟨hsource, hinput, hsink⟩ := h
    exact ⟨⟨hsource, hinput, hsink⟩, rfl, rfl⟩
  | right => exact h.moveCursor .right
  | left => exact h.moveCursor .left
  | input => exact h.readInput
  | output => exact h.writeOutput
  | loopOpen => exact h.enterLoop
  | loopClose => exact h.closeLoop

theorem HeedsAlike.executeNext (h : m.HeedsAlike m') :
    m.executeNext.HeedsAlike m'.executeNext := by
  obtain ⟨result, n, n', hfetch, hfetch', hn⟩ := h.fetch
  unfold Machine.executeNext
  rw [hfetch, hfetch']
  rcases result with fault | _ | op
  · obtain ⟨hsource, hinput, hsink⟩ := hn
    exact ⟨⟨hsource, hinput, hsink⟩, rfl, rfl⟩
  · obtain ⟨hsource, hinput, hsink⟩ := hn
    exact ⟨⟨hsource, hinput, hsink⟩, rfl, rfl⟩
  · have hcounted :
        HeedsAlike { n with steps := n.steps + 1 } { n' with steps := n'.steps + 1 } := by
      obtain ⟨hsource, hinput, hsink⟩ := hn
      exact ⟨hsource, hinput, hsink⟩
    have hexecuted := hcounted.execute op
    refine ⟨hexecuted.machine, hexecuted.fault, ?_⟩
    dsimp only
    rw [hn.dispatched_eq, hexecuted.events]

theorem HeedsAlike.skipNext (h : m.HeedsAlike m') (depth : Nat) :
    (m.skipNext depth).HeedsAlike (m'.skipNext depth) := by
  obtain ⟨result, n, n', hfetch, hfetch', hsource, hinput, hsink⟩ := h.fetch
  unfold Machine.skipNext
  rw [hfetch, hfetch']
  rcases result with fault | _ | op
  all_goals exact ⟨⟨hsource, hinput, hsink⟩, rfl, rfl⟩

theorem HeedsAlike.step (h : m.HeedsAlike m') : m.step.HeedsAlike m'.step := by
  unfold Machine.step
  rw [h.mode_eq]
  cases m.mode with
  | halted => exact ⟨h, rfl, rfl⟩
  | running => exact h.executeNext
  | skipping depth => exact h.skipNext depth

theorem HeedsAlike.after (h : m.HeedsAlike m') (count : Nat) :
    (m.after count).HeedsAlike (m'.after count) := by
  induction count with
  | zero => exact h
  | succ count ih =>
    rw [after_succ_eq_step, after_succ_eq_step]
    exact ih.step.machine

theorem HeedsAlike.advance (h : m.HeedsAlike m') (limit : Nat) (log : Array Event) :
    (m.advance limit log).HeedsAlike (m'.advance limit log) := by
  induction limit generalizing m m' log with
  | zero => exact ⟨h, rfl, rfl⟩
  | succ limit ih =>
    have hstep := h.step
    rw [Machine.advance, Machine.advance, hstep.machine.mode_eq, hstep.events]
    cases m.step.machine.mode with
    | halted => exact ⟨hstep.machine, hstep.fault, rfl⟩
    | running | skipping depth => exact ih hstep.machine _

theorem HeedsAlike.run (h : m.HeedsAlike m') (fuel : Nat) :
    Option.Rel Run.HeedsAlike (m.run fuel) (m'.run fuel) := by
  obtain ⟨hmachine, hfault, hevents⟩ := h.advance fuel #[]
  unfold Machine.run
  dsimp only
  rw [hmachine.mode_eq]
  cases (m.advance fuel #[]).machine.mode with
  | running | skipping depth => exact .none
  | halted =>
    cases hresult : (m.advance fuel #[]).fault with
    | none =>
      rw [SameFault, hresult] at hfault
      rw [Option.map_eq_none_iff.mp hfault.symm]
      refine .some ⟨hmachine, rfl, ?_⟩
      dsimp only
      rw [Array.map_push, Array.map_push, hevents, hmachine.closing_eq]
    | some fault =>
      have hfault' := hfault
      rw [SameFault, hresult] at hfault'
      obtain ⟨fault', hresult', -⟩ := Option.map_eq_some_iff.mp hfault'.symm
      rw [hresult']
      exact .some ⟨hmachine, hfault, hevents⟩

/-- What a machine still has before it are the last answers that it was given. -/
structure Leaves (program input : List ReadEvent) (writes : List WriteReply) (m : Machine) :
    Prop where
  program : m.source.events <:+ program
  input : m.input <:+ input
  writes : m.sink.writes <:+ writes

variable {program program' input input' : List ReadEvent} {writes writes' : List WriteReply}

theorem Leaves.step (h : Leaves program input writes m) :
    Leaves program input writes m.step.machine where
  program := by
    rw [events_step]
    exact (List.drop_suffix _ _).trans h.program
  input := by
    rw [input_step]
    exact (List.drop_suffix _ _).trans h.input
  writes := (writes_step m).trans h.writes

theorem leaves_after (config : Config) (program input : List ReadEvent)
    (writes : List WriteReply) (flushes : List FlushReply) (count : Nat) :
    Leaves program input writes
      ((initial config program input (.ofReplies writes flushes)).after count) := by
  induction count with
  | zero => exact ⟨List.suffix_refl _, List.suffix_refl _, List.suffix_refl _⟩
  | succ count ih =>
    rw [after_succ_eq_step]
    exact ih.step

/-- What two machines have in common whose answers differ in what is passed over. -/
structure SameButSilence (program program' input input' : List ReadEvent)
    (writes writes' : List WriteReply) (m m' : Machine) : Prop where
  mode : m.mode = m'.mode
  tape : m.tape = m'.tape
  loops : m.loops = m'.loops
  recording : m.recording = m'.recording
  steps : m.steps = m'.steps
  outputBytes : m.outputBytes = m'.outputBytes
  unclosedLoops : m.unclosedLoops = m'.unclosedLoops
  exhausted : m.source.exhausted = m'.source.exhausted
  bytes : m.sink.bytes = m'.sink.bytes
  flushes : m.sink.flushes = m'.sink.flushes
  flushCalls : m.sink.flushCalls = m'.sink.flushCalls
  program : ConsumedAlike ReadEvent.isSilent program program' m.source.events m'.source.events
  input : ConsumedAlike ReadEvent.isInterrupted input input' m.input m'.input
  writes : ConsumedAlike WriteReply.isInterrupted writes writes' m.sink.writes m'.sink.writes

/-- Two runs that end alike. The report at the end of a run counts the program bytes. -/
structure SameRun (program program' input input' : List ReadEvent)
    (writes writes' : List WriteReply) (r r' : Run) : Prop where
  machine : SameButSilence program program' input input' writes writes' r.machine r'.machine
  fault : SameFault r.fault r'.fault
  events : r.events.map Event.withoutProgramBytes = r'.events.map Event.withoutProgramBytes

section Request

variable (config : Config) (flushes : List FlushReply)
  (hprogram : heeded ReadEvent.isSilent program = heeded ReadEvent.isSilent program')
  (hinput : heeded ReadEvent.isInterrupted input = heeded ReadEvent.isInterrupted input')
  (hwrites : heeded WriteReply.isInterrupted writes = heeded WriteReply.isInterrupted writes')

include hprogram hinput hwrites

theorem HeedsAlike.sameButSilence (h : m.HeedsAlike m') (hleaves : Leaves program input writes m)
    (hleaves' : Leaves program' input' writes' m') :
    SameButSilence program program' input input' writes writes' m m' := by
  obtain ⟨hsource, hheard, hsink⟩ := h
  exact {
    mode := rfl
    tape := rfl
    loops := rfl
    recording := rfl
    steps := rfl
    outputBytes := rfl
    unclosedLoops := rfl
    exhausted := hsource.exhausted
    bytes := hsink.bytes
    flushes := hsink.flushes
    flushCalls := hsink.flushCalls
    program := consumedAlike_of_suffix hleaves.program hleaves'.program hprogram hsource.events
    input := consumedAlike_of_suffix hleaves.input hleaves'.input hinput hheard
    writes := consumedAlike_of_suffix hleaves.writes hleaves'.writes hwrites hsink.writes }

theorem heedsAlike_initial :
    (initial config program input (.ofReplies writes flushes)).HeedsAlike
      (initial config program' input' (.ofReplies writes' flushes)) :=
  ⟨⟨hprogram, rfl⟩, hinput, hwrites, rfl, rfl, rfl⟩

/-- Comments and interruptions change nothing but the number of program bytes, the place of an
unmatched bracket and the number of write calls. -/
theorem sameButSilence_of_heeded :
    (∀ count, SameButSilence program program' input input' writes writes'
        ((initial config program input (.ofReplies writes flushes)).after count)
        ((initial config program' input' (.ofReplies writes' flushes)).after count) ∧
      SameFault
        ((initial config program input (.ofReplies writes flushes)).after count).step.fault
        ((initial config program' input' (.ofReplies writes' flushes)).after count).step.fault ∧
      ((initial config program input (.ofReplies writes flushes)).after count).step.events
        = ((initial config program' input' (.ofReplies writes' flushes)).after
            count).step.events) ∧
      ∀ fuel, Option.Rel (SameRun program program' input input' writes writes')
        ((initial config program input (.ofReplies writes flushes)).run fuel)
        ((initial config program' input' (.ofReplies writes' flushes)).run fuel) := by
  have hstart := heedsAlike_initial config flushes hprogram hinput hwrites
  have hsame := fun count => (hstart.after count).sameButSilence hprogram hinput hwrites
    (leaves_after config program input writes flushes count)
    (leaves_after config program' input' writes' flushes count)
  refine ⟨fun count => ⟨hsame count, ?_, ?_⟩, fun fuel => ?_⟩
  · exact (hstart.after count).step.fault
  · exact (hstart.after count).step.events
  · have hrun := hstart.run fuel
    generalize hleft :
      (initial config program input (.ofReplies writes flushes)).run fuel = left at hrun ⊢
    generalize hright :
      (initial config program' input' (.ofReplies writes' flushes)).run fuel = right at hrun ⊢
    cases hrun with
    | none => exact .none
    | some hruns =>
      have hmachine := hsame fuel
      rw [← machine_run hleft, ← machine_run hright] at hmachine
      exact .some ⟨hmachine, hruns.fault, hruns.events⟩

end Request

/-- A loop is run through twice. Comments stand in it and before the end, and every stream is
interrupted. -/
theorem sameButSilence_of_loop :
    heeded ReadEvent.isSilent
        [.byte 44, .byte 91, .interrupted, .byte 46, .byte 35, .byte 45, .byte 93, .byte 35]
        = heeded ReadEvent.isSilent ([44, 91, 46, 45, 93].map .byte) ∧
      heeded ReadEvent.isInterrupted [.interrupted, .byte 2]
        = heeded ReadEvent.isInterrupted [.byte 2] ∧
      heeded WriteReply.isInterrupted [.interrupted, .taken, .interrupted]
        = heeded WriteReply.isInterrupted [.taken] ∧
      SameButSilence
        [.byte 44, .byte 91, .interrupted, .byte 46, .byte 35, .byte 45, .byte 93, .byte 35]
        ([44, 91, 46, 45, 93].map .byte) [.interrupted, .byte 2] [.byte 2]
        [.interrupted, .taken, .interrupted] [.taken]
        ((initial { tapeSize := 3 }
          [.byte 44, .byte 91, .interrupted, .byte 46, .byte 35, .byte 45, .byte 93, .byte 35]
          [.interrupted, .byte 2] (.ofReplies [.interrupted, .taken, .interrupted] [])).after 11)
        ((initial { tapeSize := 3 } ([44, 91, 46, 45, 93].map .byte) [.byte 2]
          (.ofReplies [.taken] [])).after 11) :=
  ⟨by decide, by decide, by decide,
    ((sameButSilence_of_heeded { tapeSize := 3 } [] (by decide) (by decide) (by decide)).1 11).1⟩

end Machine

end TapeMachine
