import TapeMachine.Proofs.Machine.Failing
import TapeMachine.Proofs.Machine.StepReports

/-!
# Output accounting

The counters of a sink and of a machine stay in step with the bytes that were put out, whatever the
sink answers. Each byte that is taken costs one write call and one flush call, each interruption
another write call, and a refusal the last one. A byte is counted when its flush has succeeded, so
there is one byte more than was counted exactly after a flush that failed.
-/

namespace TapeMachine

/-- The call takes nothing and is not repeated. -/
def WriteReply.isRefusal : WriteReply → Bool
  | refused | failure _ => true
  | taken | interrupted => false

namespace Sink

/-- The next write call that is not interrupted takes the byte. Past the last answer every call
does. -/
def takes (s : Sink) : Bool := (s.writes.find? (· ≠ .interrupted)).all (· = .taken)

variable {value : UInt8} {s : Sink}

/-- The answers that are used up by one byte, and the calls made for it. -/
theorem deliver_replies (writes : List WriteReply) (calls : Nat) :
    ∃ replies, writes = replies ++ (deliver writes calls).2.1 ∧
      (deliver writes calls).2.2 = calls + replies.count .interrupted + 1 ∧
      ((deliver writes calls).1 = .ok () ∧ replies.any WriteReply.isRefusal = false ∧
          (writes.find? (· ≠ .interrupted)).all (· = .taken) = true ∨
        (∃ error, (deliver writes calls).1 = .error error) ∧
          replies.any WriteReply.isRefusal = true ∧
          (writes.find? (· ≠ .interrupted)).all (· = .taken) = false) := by
  induction writes generalizing calls with
  | nil => exact ⟨[], rfl, rfl, Or.inl ⟨rfl, rfl, rfl⟩⟩
  | cons reply rest ih =>
    cases reply with
    | taken => exact ⟨[.taken], rfl, rfl, Or.inl ⟨rfl, rfl, rfl⟩⟩
    | refused => exact ⟨[.refused], rfl, rfl, Or.inr ⟨⟨_, rfl⟩, rfl, rfl⟩⟩
    | failure error => exact ⟨[.failure error], rfl, rfl, Or.inr ⟨⟨_, rfl⟩, rfl, rfl⟩⟩
    | interrupted =>
      obtain ⟨replies, hsplit, hcalls, hresult⟩ := ih (calls + 1)
      refine ⟨.interrupted :: replies, congrArg _ hsplit, ?_, hresult⟩
      rw [List.count_cons_self, deliver, hcalls]
      omega

/-- What becomes of a byte that is handed to the sink. -/
inductive Puts (value : UInt8) (s : Sink) : Except Fault Unit × Sink → Prop where
  | refused {replies left : List WriteReply} {error : IoError}
    (hwrites : s.writes = replies ++ left) (hrefusal : replies.any WriteReply.isRefusal = true)
    (htakes : s.takes = false) (hflush : ¬s.FlushFails value) :
    Puts value s (.error (.sinkUnavailable error),
      { s with writes := left, writeCalls := s.writeCalls + replies.count .interrupted + 1 })
  | unflushed {replies left : List WriteReply} {error : IoError}
    (hwrites : s.writes = replies ++ left) (hrefusal : replies.any WriteReply.isRefusal = false)
    (htakes : s.takes = true) (hflush : s.FlushFails value) :
    Puts value s (.error (.sinkUnavailable error),
      { writes := left
        flushes := s.flushes.tail
        bytes := s.bytes.push value
        writeCalls := s.writeCalls + replies.count .interrupted + 1
        flushCalls := s.flushCalls + 1 })
  | flushed {replies left : List WriteReply}
    (hwrites : s.writes = replies ++ left) (hrefusal : replies.any WriteReply.isRefusal = false)
    (htakes : s.takes = true) (hflush : ¬s.FlushFails value)
    (hdone : ∀ reply ∈ s.flushes.head?, reply = .done) :
    Puts value s (.ok (),
      { writes := left
        flushes := s.flushes.tail
        bytes := s.bytes.push value
        writeCalls := s.writeCalls + replies.count .interrupted + 1
        flushCalls := s.flushCalls + 1 })

section Flushing

variable {written : Sink}

theorem put_of_done (hwrite : s.write value = (.ok (), written))
    (h : ∀ reply ∈ written.flushes.head?, reply = .done) :
    ¬s.FlushFails value ∧ s.put value = (.ok (), { written with
      flushes := written.flushes.tail, flushCalls := written.flushCalls + 1 }) := by
  have hflush : written.flush = (.ok (), { written with
      flushes := written.flushes.tail, flushCalls := written.flushCalls + 1 }) := by
    rcases hhead : written.flushes.head? with _ | reply
    · simp [flush, hhead]
    · obtain rfl := h reply hhead
      simp [flush, hhead]
  constructor
  · rintro ⟨-, error, hfailed⟩
    rw [hwrite, hflush] at hfailed
    simp at hfailed
  · rw [put, hwrite]
    dsimp only
    rw [hflush]

theorem put_of_failure (hwrite : s.write value = (.ok (), written)) {error : IoError}
    (h : written.flushes.head? = some (.failure error)) :
    s.FlushFails value ∧ s.put value = (.error (.sinkUnavailable error), { written with
      flushes := written.flushes.tail, flushCalls := written.flushCalls + 1 }) := by
  have hflush : written.flush = (.error error, { written with
      flushes := written.flushes.tail, flushCalls := written.flushCalls + 1 }) := by
    simp [flush, h]
  constructor
  · rw [FlushFails, hwrite, hflush]
    exact ⟨rfl, error, rfl⟩
  · rw [put, hwrite]
    dsimp only
    rw [hflush]

end Flushing

theorem puts_put (value : UInt8) (s : Sink) : s.Puts value (s.put value) := by
  obtain ⟨replies, hwrites, hcalls, hresult⟩ := deliver_replies s.writes s.writeCalls
  rcases hdeliver : deliver s.writes s.writeCalls with ⟨result, left, calls⟩
  rw [hdeliver] at hwrites hcalls hresult
  dsimp only at hwrites hcalls hresult
  subst hcalls
  rcases hresult with ⟨rfl, hrefusal, htakes⟩ | ⟨⟨error, rfl⟩, hrefusal, htakes⟩
  · have hwrite : s.write value = (.ok (), { s with
        writes := left
        writeCalls := s.writeCalls + replies.count .interrupted + 1
        bytes := s.bytes.push value }) := by
      rw [write, hdeliver]
    rcases hhead : s.flushes.head? with _ | _ | error
    · obtain ⟨hflush, hput⟩ := put_of_done hwrite (by simp [hhead])
      rw [hput]
      exact .flushed hwrites hrefusal htakes hflush (by simp [hhead])
    · obtain ⟨hflush, hput⟩ := put_of_done hwrite (by simp [hhead])
      rw [hput]
      exact .flushed hwrites hrefusal htakes hflush (by simp [hhead])
    · obtain ⟨hflush, hput⟩ := put_of_failure hwrite hhead
      rw [hput]
      exact .unflushed hwrites hrefusal htakes hflush
  · have hwrite : s.write value = (.error error, { s with
        writes := left, writeCalls := s.writeCalls + replies.count .interrupted + 1 }) := by
      rw [write, hdeliver]
    rw [put, hwrite]
    refine .refused hwrites hrefusal htakes ?_
    rintro ⟨htaken, -⟩
    rw [hwrite] at htaken
    simp at htaken

/-- The calls made to a sink and the bytes it took, by the answers `writes` and `flushes` that it
was to give. -/
structure Counts (writes : List WriteReply) (flushes : List FlushReply) (s : Sink) : Prop where
  flushCalls : s.flushCalls = s.bytes.size
  flushReplies : s.flushes = flushes.drop s.flushCalls
  writeCalls : ∃ replies, writes = replies ++ s.writes ∧
    s.writeCalls = s.bytes.size + replies.count .interrupted
      + if replies.any WriteReply.isRefusal then 1 else 0

/-- No byte was refused, and all that were taken have been passed on. -/
structure Clear (writes : List WriteReply) (flushes : List FlushReply) (s : Sink) : Prop where
  taken : ∀ replies, writes = replies ++ s.writes → replies.any WriteReply.isRefusal = false
  passedOn : ∀ reply ∈ flushes.take s.flushCalls, reply = .done

variable {writes : List WriteReply} {flushes : List FlushReply}

theorem counts_ofReplies (writes : List WriteReply) (flushes : List FlushReply) :
    Counts writes flushes (.ofReplies writes flushes) where
  flushCalls := rfl
  flushReplies := rfl
  writeCalls := ⟨[], rfl, rfl⟩

theorem clear_ofReplies (writes : List WriteReply) (flushes : List FlushReply) :
    Clear writes flushes (.ofReplies writes flushes) where
  taken replies h := by
    obtain rfl : replies = [] := by simpa [ofReplies] using h
    rfl
  passedOn reply h := by simp [ofReplies] at h

theorem Counts.put (h : Counts writes flushes s) (hclear : Clear writes flushes s) (value : UInt8) :
    Counts writes flushes (s.put value).2 := by
  obtain ⟨replies, hsplit, hcalls⟩ := h.writeCalls
  rw [hclear.taken replies hsplit] at hcalls
  have hputs := puts_put value s
  generalize s.put value = outcome at hputs
  cases hputs with
  | @refused more left error hwrites hmore =>
    refine ⟨h.flushCalls, h.flushReplies, replies ++ more, ?_, ?_⟩
    · rw [hsplit, hwrites, List.append_assoc]
    · simp only [hcalls, List.any_append, hmore, Bool.or_true, if_true, List.count_append,
        Bool.false_eq_true, if_false]
      omega
  | @unflushed more left error hwrites hmore | @flushed more left hwrites hmore =>
    refine ⟨?_, ?_, replies ++ more, ?_, ?_⟩
    · rw [h.flushCalls, Array.size_push]
    · rw [h.flushReplies, List.tail_drop]
    · rw [hsplit, hwrites, List.append_assoc]
    · simp only [hcalls, List.any_append, hclear.taken replies hsplit, hmore, Bool.or_false,
        Bool.false_eq_true, if_false, List.count_append, Array.size_push]
      omega

/-- A byte that is passed on leaves everything clear. -/
theorem Clear.put (h : Clear writes flushes s) (hcounts : Counts writes flushes s)
    (hok : (s.put value).1 = .ok ()) : Clear writes flushes (s.put value).2 := by
  obtain ⟨replies, hsplit, -⟩ := hcounts.writeCalls
  have hputs := puts_put value s
  generalize s.put value = outcome at hputs hok
  cases hputs with
  | refused | unflushed => simp at hok
  | @flushed more left hwrites hmore htakes hflush hdone =>
    refine ⟨fun replies' hsplit' => ?_, fun reply hreply => ?_⟩
    · rw [hsplit, hwrites, ← List.append_assoc] at hsplit'
      rw [← List.append_cancel_right hsplit', List.any_append, h.taken replies hsplit, hmore]
      rfl
    · rw [List.take_add_one, List.mem_append] at hreply
      rcases hreply with hreply | hreply
      · exact h.passedOn reply hreply
      · refine hdone reply ?_
        rw [hcounts.flushReplies, List.head?_drop]
        exact Option.mem_toList.mp hreply

/-- A byte is refused, or taken and passed on, or taken and not passed on. -/
theorem put_cases (value : UInt8) (s : Sink) :
    ((s.put value).1 = .ok () ∧ s.takes = true ∧ ¬s.FlushFails value) ∨
      (∃ error, (s.put value).1 = .error (.sinkUnavailable error)) ∧
        (s.takes = true ↔ s.FlushFails value) := by
  have hputs := puts_put value s
  generalize s.put value = outcome at hputs
  cases hputs with
  | refused _ _ htakes hflush => exact Or.inr ⟨⟨_, rfl⟩, by simp [htakes, hflush]⟩
  | unflushed _ _ htakes hflush => exact Or.inr ⟨⟨_, rfl⟩, by simp [htakes, hflush]⟩
  | flushed _ _ htakes hflush => exact Or.inl ⟨rfl, htakes, hflush⟩

theorem bytes_put (value : UInt8) (s : Sink) :
    (s.put value).2.bytes = if s.takes then s.bytes.push value else s.bytes := by
  have hputs := puts_put value s
  generalize s.put value = outcome at hputs
  cases hputs with
  | refused _ _ htakes => simp [htakes]
  | unflushed _ _ htakes | flushed _ _ htakes => simp [htakes]

end Sink

namespace Machine

variable {m : Machine}

theorem outputBytes_execute {op : Op} (h : op ≠ .output) (m : Machine) :
    (m.execute op).machine.outputBytes = m.outputBytes := by
  cases op with
  | increment | decrement => rfl
  | right | left =>
    simp only [execute, moveCursor]
    split <;> rfl
  | input =>
    simp only [execute, readInput]
    split <;> rfl
  | output => exact absurd rfl h
  | loopOpen => rw [execute, enterLoop_same]
  | loopClose => rw [execute, closeLoop_same]

theorem outputBytes_step (h : m.executed? ≠ some .output) :
    m.step.machine.outputBytes = m.outputBytes := by
  cases hexecuted : m.executed? with
  | none => rw [(idles_of_unexecuted hexecuted).same]
  | some op =>
    have hop : op ≠ .output := fun heq => h (heq ▸ hexecuted)
    rw [step_of_executed hexecuted]
    exact (outputBytes_execute hop m.counted).trans (outputBytes_counted m)

/-- Only an output operation reaches the sink. -/
theorem sink_step_of_ne (h : m.executed? ≠ some .output) : m.step.machine.sink = m.sink := by
  rw [sink_step, if_neg fun hputs => h (executed?_eq_some_iff.mpr hputs)]

/-- A byte is counted if the sink has passed it on. -/
theorem step_of_put_ok (h : m.executed? = some .output)
    (hput : (m.sink.put m.tape.current).1 = .ok ()) :
    m.step.machine.mode = .running ∧ m.step.machine.outputBytes = m.outputBytes + 1 := by
  rw [step_of_executed h]
  simp only [execute, writeOutput, sink_counted, tape_counted, hput]
  refine ⟨(mode_counted m).trans (executed?_eq_some_iff.mp h).1, ?_⟩
  rw [← outputBytes_counted m]
  rfl

/-- Otherwise the machine halts, and nothing is counted. -/
theorem step_of_put_error {fault : Fault} (h : m.executed? = some .output)
    (hput : (m.sink.put m.tape.current).1 = .error fault) :
    m.step.fault = some fault ∧ m.step.machine.mode = .halted ∧
      m.step.machine.outputBytes = m.outputBytes := by
  rw [step_of_executed h]
  simp only [execute, writeOutput, sink_counted, tape_counted, hput]
  exact ⟨rfl, rfl, outputBytes_counted m⟩

/-- The byte that a step hands to a sink that takes it. -/
def takenByte? (m : Machine) : Option UInt8 :=
  if m.executed? = some .output ∧ m.sink.takes = true then some m.tape.current else none

/-- The current cells at the output operations of a number of steps, where they were taken. -/
def takenBytes (count : Nat) (m : Machine) : List UInt8 :=
  (List.range count).filterMap fun made => (m.after made).takenByte?

theorem takenBytes_succ (count : Nat) (m : Machine) : m.takenBytes (count + 1)
    = m.takenBytes count ++ (m.after count).takenByte?.toList := by
  rw [takenBytes, List.range_succ, List.filterMap_append, ← takenBytes]
  cases htaken : (m.after count).takenByte? <;> simp [htaken]

/-- What the counters say after a number of steps, for a sink that gives the answers `writes` and
`flushes`. -/
structure Accounts (writes : List WriteReply) (flushes : List FlushReply) (start : Machine)
    (count : Nat) (m : Machine) : Prop where
  bytes : m.sink.bytes.toList = start.takenBytes count
  counts : m.sink.Counts writes flushes
  counted : (∀ last < count, ¬(start.after last).FlushFails) → m.sink.bytes.size = m.outputBytes
  /-- A byte that the sink failed to pass on is taken and not counted, and it is the last one. -/
  uncounted : ∀ last < count, (start.after last).FlushFails →
    m.sink.bytes.size = m.outputBytes + 1 ∧ m.mode = .halted ∧
      ∃ error, (start.after last).step.fault = some (.sinkUnavailable error)
  /-- A machine that is to fetch or to read anything more has had every byte passed on. -/
  clear : m.mode ≠ .halted → m.sink.Clear writes flushes
  rests : m.mode = .halted → m.step = .quiet m

section Accounting

variable {writes : List WriteReply} {flushes : List FlushReply} {start : Machine} {count : Nat}

/-- A machine that goes on has met no flush that failed. -/
theorem Accounts.not_flushFails (h : Accounts writes flushes start count m)
    (hgoes : m.mode ≠ .halted) : ∀ last < count, ¬(start.after last).FlushFails :=
  fun last hlt hfails => hgoes (h.uncounted last hlt hfails).2.1

theorem Accounts.step_of_ne (h : Accounts writes flushes start count m)
    (hm : start.after count = m) (hother : m.executed? ≠ some .output) :
    Accounts writes flushes start (count + 1) m.step.machine := by
  have hcounted := outputBytes_step hother
  refine ⟨?_, ?_, fun hpassed => ?_, fun last hlt hfails => ?_, fun hgoes => ?_, step_of_halted⟩
  all_goals rw [sink_step_of_ne hother]
  · rw [h.bytes, takenBytes_succ, hm, takenByte?, if_neg fun htaken => hother htaken.1]
    exact (List.append_nil _).symm
  · exact h.counts
  · rw [hcounted]
    exact h.counted fun last hlt => hpassed last (Nat.lt_succ_of_lt hlt)
  · rcases Nat.lt_succ_iff_lt_or_eq.mp hlt with hlt | rfl
    · obtain ⟨hsize, hhalted, hfault⟩ := h.uncounted last hlt hfails
      rw [hcounted, step_of_halted hhalted]
      exact ⟨hsize, hhalted, hfault⟩
    · rw [hm] at hfails
      exact absurd (executed?_eq_some_iff.mpr ⟨hfails.1, hfails.2.1⟩) hother
  · exact h.clear (mode_ne_halted_of_step hgoes)

theorem Accounts.step_of_output (h : Accounts writes flushes start count m)
    (hm : start.after count = m) (houtput : m.executed? = some .output) :
    Accounts writes flushes start (count + 1) m.step.machine := by
  obtain ⟨hmode, hfetch⟩ := executed?_eq_some_iff.mp houtput
  have hgoes : m.mode ≠ .halted := by simp [hmode]
  have hearlier := h.not_flushFails hgoes
  have hsize := h.counted hearlier
  have hclear := h.clear hgoes
  have hflush : m.sink.FlushFails m.tape.current ↔ (start.after count).FlushFails := by
    rw [hm, FlushFails]
    simp [hmode, hfetch]
  have hsink : m.step.machine.sink = (m.sink.put m.tape.current).2 := by
    rw [sink_step, if_pos ⟨hmode, hfetch⟩]
  have hbytes : m.step.machine.sink.bytes.toList = start.takenBytes (count + 1) := by
    rw [hsink, Sink.bytes_put, takenBytes_succ, hm, takenByte?, houtput, ← h.bytes]
    cases m.sink.takes <;> simp
  have hcounts : m.step.machine.sink.Counts writes flushes := by
    rw [hsink]
    exact h.counts.put hclear m.tape.current
  have hlater : ∀ last < count + 1, (start.after last).FlushFails → last = count := by
    intro last hlt hfails
    rcases Nat.lt_succ_iff_lt_or_eq.mp hlt with hlt | heq
    · exact absurd hfails (hearlier last hlt)
    · exact heq
  rcases Sink.put_cases m.tape.current m.sink with ⟨hok, htakes, hnot⟩ | ⟨⟨error, herror⟩, htakes⟩
  · obtain ⟨hrunning, hcounted⟩ := step_of_put_ok houtput hok
    refine ⟨hbytes, hcounts, fun _ => ?_, fun last hlt hfails => ?_, fun _ => ?_, step_of_halted⟩
    · rw [hsink, Sink.bytes_put, if_pos htakes, Array.size_push, hsize, hcounted]
    · obtain rfl := hlater last hlt hfails
      exact absurd (hflush.mpr hfails) hnot
    · rw [hsink]
      exact hclear.put h.counts hok
  · obtain ⟨hfault, hhalted, hcounted⟩ := step_of_put_error houtput herror
    refine ⟨hbytes, hcounts, fun hpassed => ?_, fun last hlt hfails => ?_,
      fun hgoes => absurd hhalted hgoes, step_of_halted⟩
    · have hnot := mt (htakes.trans hflush).mp (hpassed count (Nat.lt_succ_self count))
      rw [hsink, Sink.bytes_put, if_neg hnot, hsize, hcounted]
    · obtain rfl := hlater last hlt hfails
      have htaken := (htakes.trans hflush).mpr hfails
      rw [hsink, Sink.bytes_put, if_pos htaken, Array.size_push, hsize, hcounted, hm]
      exact ⟨rfl, hhalted, error, hfault⟩

end Accounting

/-- A machine that goes on has counted all the bytes that its sink has taken. -/
theorem counted_after {count : Nat} (h : m.sink.bytes.size = m.outputBytes)
    (hgoes : (m.after count).mode ≠ .halted) :
    (m.after count).sink.bytes.size = (m.after count).outputBytes := by
  induction count with
  | zero => exact h
  | succ count ih =>
    rw [after_succ_eq_step] at hgoes ⊢
    have hbefore := ih (mode_ne_halted_of_step hgoes)
    by_cases houtput : (m.after count).executed? = some .output
    · obtain ⟨hmode, hfetch⟩ := executed?_eq_some_iff.mp houtput
      rcases Sink.put_cases (m.after count).tape.current (m.after count).sink with
        ⟨hok, htakes, -⟩ | ⟨⟨error, herror⟩, -⟩
      · rw [(step_of_put_ok houtput hok).2, sink_step, if_pos ⟨hmode, hfetch⟩, Sink.bytes_put,
          if_pos htakes, Array.size_push, hbefore]
      · exact absurd (step_of_put_error houtput herror).2.1 hgoes
    · rw [outputBytes_step houtput, sink_step_of_ne houtput, hbefore]

/-- The counters are in step with the bytes taken after every number of steps, whatever the sink
answers. -/
theorem accounts_after (config : Config) (program input : List ReadEvent)
    (writes : List WriteReply) (flushes : List FlushReply) (count : Nat) :
    Accounts writes flushes (initial config program input (.ofReplies writes flushes)) count
      ((initial config program input (.ofReplies writes flushes)).after count) := by
  induction count with
  | zero =>
    exact {
      bytes := rfl
      counts := Sink.counts_ofReplies writes flushes
      counted := fun _ => rfl
      uncounted := fun last hlt => absurd hlt (Nat.not_lt_zero last)
      clear := fun _ => Sink.clear_ofReplies writes flushes
      rests := step_of_halted }
  | succ count ih =>
    rw [after_succ_eq_step]
    by_cases houtput :
        ((initial config program input (.ofReplies writes flushes)).after count).executed?
          = some .output
    · exact ih.step_of_output rfl houtput
    · exact ih.step_of_ne rfl houtput

/-- A byte is put out, and the sink takes it but fails to pass it on. -/
theorem accounts_after_failedFlush :
    ((initial { tapeSize := 3 } [.byte 43, .byte 46] []
        (.ofReplies [.interrupted] [.failure ⟨"closed"⟩])).after 1).FlushFails ∧
      ((initial { tapeSize := 3 } [.byte 43, .byte 46] []
        (.ofReplies [.interrupted] [.failure ⟨"closed"⟩])).after 2).sink.bytes.size
          = ((initial { tapeSize := 3 } [.byte 43, .byte 46] []
            (.ofReplies [.interrupted] [.failure ⟨"closed"⟩])).after 2).outputBytes + 1 := by
  have hfails : ((initial { tapeSize := 3 } [.byte 43, .byte 46] []
      (.ofReplies [.interrupted] [.failure ⟨"closed"⟩])).after 1).FlushFails :=
    ⟨by decide, by decide, by decide, ⟨"closed"⟩, by decide⟩
  exact ⟨hfails, ((accounts_after { tapeSize := 3 } [.byte 43, .byte 46] [] [.interrupted]
    [.failure ⟨"closed"⟩] 2).uncounted 1 (by decide) hfails).1⟩

end Machine

end TapeMachine
