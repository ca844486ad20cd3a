import TapeMachine.Proofs.Machine.Halting
import TapeMachine.Proofs.Machine.Step

/-!
# Programs that are read without a failure

If no read of the program fails, the next step handles the next operation of the text, and the end
is met exactly when all operations have been passed. A loop that is not entered is skipped operation
by operation, and nothing but the recording, the source and the mode changes on the way.
-/

namespace TapeMachine.Machine

open Brackets Listing

variable {program read read' : List ReadEvent} {before before' rest body : List Op} {op : Op}
  {depth : Nat} {m m' : Machine}

theorem isPrefix_operations {s : Source} (h : s.ReadsOn program read) :
    operations (delivered read) <+: operations (delivered program) := by
  rw [h.split, delivered_append h.flowing, operations_append]
  exact List.prefix_append _ _

theorem isPrefix_passed (h : m.source.ReadsOn program read)
    (hdelivered : operations (delivered read) = before ++ m.recording.ops.toList) :
    m.passed before <+: operations (delivered program) := by
  refine List.IsPrefix.trans ?_ (isPrefix_operations h)
  rw [hdelivered, passed]
  exact (List.prefix_append_right_inj before).mpr (List.take_prefix _ _)

theorem Fetches.isPrefix_front (h : Fetches program read before op depth m m' read' before') :
    m.passed before ++ [op] <+: operations (delivered program) := by
  rw [← h.fetched.passed_eq]
  exact isPrefix_passed h.reads h.delivered_eq

/-- The next operation of the text is the one that is fetched. -/
theorem Follows.fetch_next (h : Follows program read before depth m) (hun : Unfailing program)
    (hnext : operations (delivered program) = m.passed before ++ op :: rest) :
    ∃ m' read' before', m.fetch = (.ok (some op), m') ∧
      Fetches program read before op depth m m' read' before' := by
  rcases h.fetch_cases with ⟨fetched, m', read', before', hfetch, hf⟩ | ⟨source, -, -, -, hall⟩ |
    ⟨error, m', -, hfailing⟩
  · have hprefix := hf.isPrefix_front
    rw [hnext, List.prefix_append_right_inj] at hprefix
    obtain rfl : fetched = op := by simpa using hprefix
    exact ⟨m', read', before', hfetch, hf⟩
  · rw [hall] at hnext
    simp at hnext
  · exact absurd hun hfailing

/-- As long as there is a next operation, a step that does not fail goes on. -/
theorem Follows.advances_next (h : Follows program read before depth m)
    (hnext : operations (delivered program) = m.passed before ++ op :: rest)
    (hfault : m.step.fault = none) :
    ∃ read' before' depth', Advances program before m read' before' depth' m.step.machine := by
  rcases h.step_cases with ⟨-, hadvances⟩ | ⟨-, hends⟩ | ⟨fault, hsome, -⟩
  · exact hadvances
  · rw [hends.passed_all] at hnext
    simp at hnext
  · rw [hfault] at hsome
    simp at hsome

theorem Follows.ends (h : Follows program read before depth m) (hun : Unfailing program)
    (hall : operations (delivered program) = m.passed before) :
    m.step.fault = none ∧ Ends program before depth m := by
  rcases h.fetch_cases with ⟨fetched, m', read', before', hfetch, hf⟩ |
    ⟨source, hfetch, hexhausted, hoffset, -⟩ | ⟨error, m', -, hfailing⟩
  · have hlength := hf.isPrefix_front.length_le
    rw [hall, List.length_append, List.length_singleton] at hlength
    omega
  · have hstep : m.step = .ended (m.loops.depth + depth) { m with source := source } := by
      cases depth with
      | zero =>
        rw [step_of_running h.mode, executeNext, hfetch]
        rfl
      | succ depth => rw [step_of_skipping h.mode, skipNext, hfetch]
    refine ⟨by rw [hstep]; rfl, ⟨source, hstep⟩, ?_, ?_, hall⟩
    · rw [hstep]
      exact hexhausted
    · rw [hstep]
      exact hoffset
  · exact absurd hun hfailing

/-- Operations were skipped from one machine to the other. -/
def SkipsTo (m m' : Machine) : Prop :=
  m' = { m with recording := m'.recording, source := m'.source, mode := m'.mode }

theorem SkipsTo.trans {m'' : Machine} (h : SkipsTo m m') (h' : SkipsTo m' m'') :
    SkipsTo m m'' := by
  unfold SkipsTo at h h' ⊢
  rw [h] at h'
  exact h'

theorem Follows.skip_next (h : Follows program read before (depth + 1) m) (hun : Unfailing program)
    (hnext : operations (delivered program) = m.passed before ++ op :: rest) :
    ∃ read' before', Follows program read' before' (depthAfter (depth + 1) op) m.step.machine ∧
      m.step.machine.passed before' = m.passed before ++ [op] ∧ SkipsTo m m.step.machine := by
  obtain ⟨m', read', before', hfetch, hf⟩ := h.fetch_next hun hnext
  rw [step_of_skipping h.mode, skipNext_of_op hfetch]
  refine ⟨read', before', (hf.advances_skip h.mode hfetch).follows, hf.fetched.passed_eq, ?_⟩
  have hsame := hf.same
  generalize m'.recording = recording, m'.source = source at hsame
  subst hsame
  rfl

/-- Operations that never close the loop in which they stand are skipped all. -/
theorem Follows.skip_run {final : Nat} (h : Follows program read before (depth + 1) m)
    (hun : Unfailing program)
    (hnext : operations (delivered program) = m.passed before ++ (body ++ rest))
    (hbody : depthFrom depth body = some final) :
    ∃ read' before', Follows program read' before' (final + 1) (m.after body.length) ∧
      (m.after body.length).passed before' = m.passed before ++ body ∧
      SkipsTo m (m.after body.length) := by
  -- The machine counts the skipped loop itself, so its depth is one more than that of the body.
  induction body generalizing m read before depth with
  | nil =>
    obtain rfl := Option.some.inj hbody
    exact ⟨read, before, h, (List.append_nil _).symm, rfl⟩
  | cons op body ih =>
    obtain ⟨read', before', hfollows, hpassed, hskips⟩ := h.skip_next hun hnext
    have hnext' : operations (delivered program)
        = m.step.machine.passed before' ++ (body ++ rest) := by
      rw [hpassed, hnext, List.append_assoc]
      rfl
    have hrun : ∀ {between}, Follows program read' before' (between + 1) m.step.machine →
        depthFrom between body = some final →
        ∃ read'' before'', Follows program read'' before'' (final + 1)
            (m.step.machine.after body.length) ∧
          (m.step.machine.after body.length).passed before'' = m.passed before ++ op :: body ∧
          SkipsTo m (m.step.machine.after body.length) := by
      intro between hbetween hdepth
      obtain ⟨read'', before'', hfinal, hall, hskips'⟩ := ih hbetween hnext' hdepth
      refine ⟨read'', before'', hfinal, ?_, hskips.trans hskips'⟩
      rw [hall, hpassed, List.append_assoc]
      rfl
    rw [List.length_cons, after_succ]
    cases op using bracketCases with
    | opening => exact hrun hfollows hbody
    | closing =>
      cases depth with
      | zero => simp [depthFrom] at hbody
      | succ depth => exact hrun hfollows hbody
    | plain op hp =>
      rw [depthAfter_plain hp] at hfollows
      rw [depthFrom_plain hp] at hbody
      exact hrun hfollows hbody

end TapeMachine.Machine
