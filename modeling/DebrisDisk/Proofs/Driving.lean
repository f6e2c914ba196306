import DebrisDisk.Proofs.Observation

/-!
# Driving a run

A run is driven by requests for one step or for all steps that are left. Which of them a driver
makes does not matter: the steps that are committed are the first steps of one whole run, and all of
them once the run is over. A bin that refuses a withdrawal ends the program, so a session stops
there.

The trace of a run, `Integrator.history`, lists the steps that its first calls commit, each with the
state, the accounts and the record that it commits. `Integrator.Commits` ties a trace to the run
that an observed sink has seen.

## Main results

* `Integrator.moves_stepOnce`: how one call moves the lifecycle.
* `Integrator.commits_session`: the trace of a session is what was committed and handed over in it.
* `Integrator.session_calls`: a session is a number of calls, at most as many as one whole run
  takes.
* `Integrator.driver_independence`: every session is a part of one whole run, and all of it once the
  run is over.
-/

namespace DebrisDisk
open Scalar DiagnosticsSink
variable {α σ τ : Type}

/-! ## The moves of the lifecycle -/

/-- The lifecycle of a run before and after a call with the given answer, where the run has
committed the given number of steps. -/
inductive Lifecycle.Moves (steps : Nat) : Lifecycle → StepResult α → Lifecycle → Prop where
  | onward {stage : Lifecycle} (live : stage.IsLive) : Moves steps stage .stepping .stepping
  | ended {stage : Lifecycle} (live : stage.IsLive) (reason : TerminationReason) :
      Moves steps stage (.terminated reason) (.terminating reason)
  | failed {stage : Lifecycle} (live : stage.IsLive) (cause : StepError α) :
      Moves steps stage (.error (.step steps cause)) (.failed steps)
  | refused {stage : Lifecycle} (live : stage.IsLive) : Moves steps stage .refused stage
  | closed (reason : TerminationReason) :
      Moves steps (.terminating reason) (.terminated reason) (.terminating reason)
  | halted (step : Nat) : Moves steps (.failed step) (.error (.halted step)) (.failed step)

/-- The answer at the end of a run. -/
theorem Lifecycle.Moves.terminated {steps : Nat} {stage : Lifecycle} {answer : StepResult α}
    {reason : TerminationReason} (moves : stage.Moves steps answer (.terminating reason)) :
    answer = .terminated reason := by
  cases moves with
  | ended live reason => rfl
  | refused live => simp at live
  | closed reason => rfl

namespace Integrator
variable [Scalar α] [DiagnosticsSink α σ] [DiagnosticsSink α τ]

/-- How one call moves the lifecycle. -/
theorem moves_stepOnce (i : Integrator α σ) :
    i.lifecycle.Moves i.steps i.stepOnce.result i.stepOnce.after.lifecycle := by
  by_cases live : i.lifecycle.IsLive
  · have course := stepOnce_course live
    generalize i.stepOnce.after = after, i.stepOnce.result = answer at course
    cases course with
    | unprepared e gathered => exact .failed live e
    | refused s gathered stuck => exact .refused live
    | violated s e gathered stuck => exact .failed live e
    | unsent s r gathered passed cause sent => exact .failed live (.sink cause)
    | onward s r gathered passed sent ending => exact .onward live
    | unfinished s r gathered passed sent reason ending cause finished =>
      exact .failed live (.sink cause)
    | ended s r gathered passed sent reason ending finished => exact .ended live reason
  · cases stage : i.lifecycle with
    | initializing => simp [stage] at live
    | stepping => simp [stage] at live
    | terminating reason => simpa [stepOnce, stage] using Lifecycle.Moves.closed reason
    | failed step => simpa [stepOnce, stage] using Lifecycle.Moves.halted step

/-! ## The trace of a run -/

/-- The steps that the first `n` calls commit. -/
def history (i : Integrator α σ) : Nat → List (Committed α)
  | 0 => []
  | n + 1 => i.committed?.toList ++ i.stepOnce.after.history n

theorem history_of_not_live {i : Integrator α σ} (dead : ¬ i.lifecycle.IsLive) (n : Nat) :
    i.history n = [] := by
  induction n with
  | zero => rfl
  | succ n ih => simp [history, committed?_of_not_live dead, (stepOnce_of_not_live dead).1, ih]

theorem history_add (i : Integrator α σ) (m n : Nat) :
    i.history (m + n) = i.history m ++ (i.afterCalls m).history n := by
  induction m generalizing i with
  | zero => simp [history]
  | succ m ih =>
    rw [Nat.add_right_comm, history, ih, history, afterCalls_succ_first, List.append_assoc]

/-- A run has moved on by the given steps: its state and its accounts are those of the last of them,
its counter has counted them, and their records were handed over in order. -/
structure Commits (i : Integrator α (Observed α σ)) (trace : List (Committed α))
    (after : Integrator α (Observed α σ)) : Prop where
  state : after.state = (trace.getLast?.map (·.state)).getD i.state
  ledger : after.ledger = (trace.getLast?.map (·.ledger)).getD i.ledger
  steps : after.steps = i.steps + trace.length
  records : after.sink.records = i.sink.records ++ trace.map (·.record)

namespace Commits
variable {i j k : Integrator α (Observed α σ)} {trace rest : List (Committed α)}

omit [Scalar α] [DiagnosticsSink α σ] in
theorem refl (i : Integrator α (Observed α σ)) : i.Commits [] i where
  state := rfl
  ledger := rfl
  steps := rfl
  records := by simp

omit [Scalar α] [DiagnosticsSink α σ] in
theorem trans (first : i.Commits trace j) (second : j.Commits rest k) :
    i.Commits (trace ++ rest) k where
  state := by
    rw [second.state, first.state, List.getLast?_append]
    cases rest.getLast? <;> rfl
  ledger := by
    rw [second.ledger, first.ledger, List.getLast?_append]
    cases rest.getLast? <;> rfl
  steps := by rw [second.steps, first.steps, List.length_append, Nat.add_assoc]
  records := by rw [second.records, first.records, List.map_append, List.append_assoc]

end Commits

/-- One call commits the step that it is said to commit. -/
theorem commits_stepOnce (i : Integrator α (Observed α σ)) :
    i.Commits i.committed?.toList i.stepOnce.after := by
  rcases i.stepOnce_commits with
    ⟨commits, kept⟩ | ⟨s, r, sink, lifecycle, commits, _, _, sent, after⟩
  · rw [commits]
    exact {
      state := kept.state, ledger := kept.ledger, steps := kept.steps
      records := by simp [kept.records] }
  · rw [commits, after]
    exact { state := rfl, ledger := rfl, steps := rfl, records := by simp [sent] }

/-- The trace of a number of calls is what they commit. -/
theorem commits_afterCalls (i : Integrator α (Observed α σ)) (n : Nat) :
    i.Commits (i.history n) (i.afterCalls n) := by
  induction n generalizing i with
  | zero => exact .refl i
  | succ n ih =>
    rw [history, afterCalls_succ_first]
    exact i.commits_stepOnce.trans (ih _)

/-- Sinks that answer alike do not change the calls. -/
theorem afterCalls_mapSink {f : σ → τ} (alike : AnswersAlike f) (i : Integrator α σ) (n : Nat) :
    (i.mapSink f).afterCalls n = (i.afterCalls n).mapSink f := by
  induction n with
  | zero => rfl
  | succ n ih => rw [afterCalls_succ, afterCalls_succ, ih, stepOnce_mapSink alike]; rfl

/-- Sinks that answer alike do not change the trace. -/
theorem history_mapSink {f : σ → τ} (alike : AnswersAlike f) (i : Integrator α σ) (n : Nat) :
    (i.mapSink f).history n = i.history n := by
  induction n generalizing i with
  | zero => rfl
  | succ n ih =>
    have same : (i.mapSink f).committed? = i.committed? := rfl
    rw [history, history, stepOnce_mapSink alike, same]
    exact congrArg _ (ih i.stepOnce.after)

/-- A step of the trace is committed by the call that comes after the steps before it. -/
theorem exists_of_getElem?_history {i : Integrator α σ} {n k : Nat} {r : Committed α}
    (member : (i.history n)[k]? = some r) :
    ∃ m, (i.afterCalls m).committed? = some r ∧ i.history m = (i.history n).take k := by
  induction n generalizing i k with
  | zero => simp [history] at member
  | succ n ih =>
    rw [history] at member ⊢
    cases commits : i.committed? with
    | none =>
      rw [commits] at member
      obtain ⟨m, committed, before⟩ := ih member
      refine ⟨m + 1, by rw [afterCalls_succ_first]; exact committed, ?_⟩
      rw [history, commits]
      exact before
    | some first =>
      rw [commits] at member
      cases k with
      | zero => exact ⟨0, commits.trans member, rfl⟩
      | succ k =>
        obtain ⟨m, committed, before⟩ := ih member
        refine ⟨m + 1, by rw [afterCalls_succ_first]; exact committed, ?_⟩
        rw [history, commits]
        exact congrArg (first :: ·) before

/-- The state after a number of calls is that of the last step they commit. -/
theorem state_afterCalls (i : Integrator α σ) (n : Nat) :
    (i.afterCalls n).state = ((i.history n).getLast?.map (·.state)).getD i.state := by
  have unobserved : i.observed.mapSink Observed.sink = i := rfl
  have observed := (i.observed.commits_afterCalls n).state
  rw [← history_mapSink (f := Observed.sink) Observed.answersAlike, unobserved] at observed
  rw [← unobserved, afterCalls_mapSink Observed.answersAlike]
  exact observed

/-! ## A whole run -/

/-- The steps that a request for a whole run commits. -/
def loopCommits (i : Integrator α σ) : List (Committed α) :=
  match _made : i.stepOnce with
  | ⟨after, .stepping, _⟩ => i.committed?.toList ++ loopCommits after
  | ⟨_, .terminated _, _⟩ | ⟨_, .error _, _⟩ | ⟨_, .refused, _⟩ => i.committed?.toList
termination_by i.allowance
decreasing_by
  have smaller := allowance_lt_of_stepping (i := i) (by rw [_made])
  rwa [_made] at smaller

/-- A whole run takes the given number of calls after its first one. -/
structure Lasts (i : Integrator α σ) (n : Nat) : Prop where
  onward : ∀ k < n, (i.afterCalls k).stepOnce.result = .stepping
  stops : (i.afterCalls n).stepOnce.result ≠ .stepping

namespace Lasts
variable {i : Integrator α σ} {m n : Nat}

theorem unique (some : i.Lasts m) (other : i.Lasts n) : m = n := by
  rcases Nat.lt_trichotomy m n with less | same | more
  · exact absurd (other.onward m less) some.stops
  · exact same
  · exact absurd (some.onward n more) other.stops

/-- After a call that goes on, one call less is left. -/
theorem tail (lasts : i.Lasts (n + 1)) : i.stepOnce.after.Lasts n where
  onward k hk := by
    have next := lasts.onward (k + 1) (by omega)
    rwa [afterCalls_succ_first] at next
  stops := by
    have last := lasts.stops
    rwa [afterCalls_succ_first] at last

theorem zero (stops : i.stepOnce.result ≠ .stepping) : i.Lasts 0 where
  onward := by simp
  stops := stops

/-- The calls that a whole run takes. -/
theorem run (lasts : i.Lasts n) : i.run.after = i.afterCalls (n + 1) ∧
    runResult? (i.afterCalls n).stepOnce = some i.run.result := by
  obtain ⟨m, onward, last, result⟩ := i.loop_calls
  have other : i.Lasts m := { onward, stops := fun goes => by simp [runResult?, goes] at result }
  obtain rfl := lasts.unique other
  exact ⟨last, result⟩

/-- What is left of a whole run after a call that goes on gives the same answer. -/
theorem run_tail (lasts : i.Lasts (n + 1)) : i.stepOnce.after.run.result = i.run.result := by
  have whole := lasts.run.2
  rw [afterCalls_succ_first, lasts.tail.run.2] at whole
  exact Option.some.inj whole

/-- The trace of a whole run. -/
theorem loopCommits (lasts : i.Lasts n) : i.loopCommits = i.history (n + 1) := by
  induction n generalizing i with
  | zero =>
    have stops := lasts.stops
    rw [afterCalls_zero] at stops
    rw [Integrator.loopCommits]
    split <;> simp_all [history]
  | succ n ih =>
    have goes := lasts.onward 0 (by omega)
    rw [afterCalls_zero] at goes
    rw [Integrator.loopCommits, history, ← ih lasts.tail]
    split <;> simp_all

/-- Sinks that answer alike do not change how long a run lasts. -/
theorem mapSink {f : σ → τ} (alike : AnswersAlike f) (lasts : i.Lasts n) :
    (i.mapSink f).Lasts n where
  onward k hk := by
    rw [afterCalls_mapSink alike, stepOnce_mapSink alike]
    exact lasts.onward k hk
  stops := by
    rw [afterCalls_mapSink alike, stepOnce_mapSink alike]
    exact lasts.stops

end Lasts

theorem exists_lasts (i : Integrator α σ) : ∃ n, i.Lasts n := by
  obtain ⟨n, onward, _, result⟩ := i.loop_calls
  exact ⟨n, { onward, stops := fun goes => by simp [runResult?, goes] at result }⟩

end Integrator

/-! ## Sessions -/

/-- A request that a driver makes. -/
inductive Demand where
  | step
  | run

/-- What comes of the requests of a driver. -/
@[ext]
structure Session (α σ : Type) where
  after : Integrator α σ
  trace : List (Committed α)
  /-- No bin has refused a withdrawal. -/
  answered : Bool

/-- The session with another sink. -/
def Session.mapSink (f : σ → τ) (s : Session α σ) : Session α τ where
  after := s.after.mapSink f
  trace := s.trace
  answered := s.answered

/-- No bin has refused a withdrawal. -/
def StepResult.isAnswer : StepResult α → Bool
  | .stepping | .terminated _ | .error _ => true
  | .refused => false

/-- No bin has refused a withdrawal. -/
def RunResult.isAnswer : RunResult α → Bool
  | .summary _ | .error _ => true
  | .refused => false

theorem StepResult.isAnswer_iff {r : StepResult α} : r.isAnswer = true ↔ r ≠ .refused := by
  cases r <;> simp [isAnswer]

theorem RunResult.isAnswer_iff {r : RunResult α} : r.isAnswer = true ↔ r ≠ .refused := by
  cases r <;> simp [isAnswer]

namespace Integrator
variable [Scalar α] [DiagnosticsSink α σ] [DiagnosticsSink α τ]

/-- What comes of one request. -/
def answer (i : Integrator α σ) : Demand → Session α σ
  | .step => {
      after := i.stepOnce.after, trace := i.committed?.toList
      answered := i.stepOnce.result.isAnswer }
  | .run => {
      after := i.run.after, trace := i.loopCommits, answered := i.run.result.isAnswer }

/-- What comes of a sequence of requests; nothing more is asked for once a bin has refused. -/
def session (i : Integrator α σ) : List Demand → Session α σ
  | [] => { after := i, trace := [], answered := true }
  | demand :: rest =>
    let first := i.answer demand
    if first.answered then
      let later := first.after.session rest
      { later with trace := first.trace ++ later.trace }
    else first

theorem session_step (i : Integrator α σ) (rest : List Demand) :
    i.session (.step :: rest) =
      if i.stepOnce.result.isAnswer then
        { i.stepOnce.after.session rest with
          trace := i.committed?.toList ++ (i.stepOnce.after.session rest).trace }
      else i.answer .step := rfl

/-- A single request for one step has the trace of that step. -/
theorem trace_step (i : Integrator α σ) : (i.session [.step]).trace = i.committed?.toList := by
  rw [session_step]
  split <;> simp [session, answer]

/-- A request to a run that is over changes nothing. -/
theorem answer_of_not_live {i : Integrator α σ} (dead : ¬ i.lifecycle.IsLive) (demand : Demand) :
    i.answer demand = { after := i, trace := [], answered := true } := by
  obtain ⟨stepKept, runKept, result, unrefused⟩ := stepOnce_run_of_not_live dead
  cases demand with
  | step =>
    have answered := StepResult.isAnswer_iff.mpr unrefused
    rw [answer, stepKept, committed?_of_not_live dead, answered]
    rfl
  | run =>
    have answered := RunResult.isAnswer_iff.mpr (mt (refused_iff result).mp unrefused)
    rw [answer, runKept, (Lasts.zero (stepOnce_of_not_live dead).2).loopCommits,
      history_of_not_live dead, answered]

/-- A session with a run that is over changes nothing. -/
theorem session_of_not_live {i : Integrator α σ} (dead : ¬ i.lifecycle.IsLive)
    (demands : List Demand) :
    i.session demands = { after := i, trace := [], answered := true } := by
  induction demands with
  | nil => rfl
  | cons demand rest ih =>
    rw [session, answer_of_not_live dead]
    simp [ih]

/-- A request for one step that does not go on is one for the whole run. -/
theorem answer_step_eq_run {i : Integrator α σ} (stops : i.stepOnce.result ≠ .stepping) :
    i.answer .step = i.answer .run := by
  obtain ⟨last, result⟩ := loop_of_not_stepping stops
  have trace : i.loopCommits = i.committed?.toList := by
    rw [(Lasts.zero stops).loopCommits]
    simp [history]
  have answered : i.stepOnce.result.isAnswer = i.run.result.isAnswer := by
    rw [Bool.eq_iff_iff, StepResult.isAnswer_iff, RunResult.isAnswer_iff, Ne, Ne, run_result,
      refused_iff result]
  rw [answer, answer, run_after, last, trace, answered]

/-- A session that begins with a whole run is that run. -/
theorem session_run {i : Integrator α σ} (rest : List Demand) :
    i.session (.run :: rest) = i.answer .run := by
  obtain ⟨n, lasts⟩ := i.exists_lasts
  obtain ⟨last, result⟩ := lasts.run
  rw [session]
  by_cases answered : (i.answer .run).answered = true
  · have dead : ¬ (i.answer .run).after.lifecycle.IsLive := by
      rw [answer, last, afterCalls_succ, ← refused_iff_isLive result]
      exact RunResult.isAnswer_iff.mp answered
    rw [session_of_not_live dead]
    simp only [answered, if_true, List.append_nil]
    rw [← answered]
  · simp only [answered, Bool.false_eq_true, if_false]

/-- A session is a number of calls, at most as many as one whole run takes, and just as many when a
bin has refused. -/
theorem session_calls {i : Integrator α σ} {n : Nat} (lasts : i.Lasts n) (demands : List Demand) :
    ∃ k ≤ n + 1, (i.session demands).after = i.afterCalls k ∧
      (i.session demands).trace = i.history k ∧
      ((i.session demands).answered = false → k = n + 1 ∧ i.run.result = .refused) := by
  -- A request for a whole run uses up all calls; one for a step leaves a run that takes one less.
  induction demands generalizing i n with
  | nil => exact ⟨0, by omega, rfl, rfl, by simp [session]⟩
  | cons demand rest ih =>
    have wholly : ∃ k ≤ n + 1, (i.session (.run :: rest)).after = i.afterCalls k ∧
        (i.session (.run :: rest)).trace = i.history k ∧
        ((i.session (.run :: rest)).answered = false → k = n + 1 ∧ i.run.result = .refused) := by
      rw [session_run]
      refine ⟨n + 1, Nat.le_refl _, lasts.run.1, lasts.loopCommits, fun unanswered => ⟨rfl, ?_⟩⟩
      exact Classical.byContradiction fun unrefused =>
        Bool.eq_false_iff.mp unanswered (RunResult.isAnswer_iff.mpr unrefused)
    cases demand with
    | step =>
      by_cases goes : i.stepOnce.result = .stepping
      · cases n with
        | zero => exact absurd goes lasts.stops
        | succ m =>
          obtain ⟨k, within, after, trace, refused⟩ := ih lasts.tail
          rw [session_step, goes]
          refine ⟨k + 1, by omega, ?_, ?_, fun unanswered => ?_⟩
          · rw [afterCalls_succ_first]
            exact after
          · rw [history, ← trace]
            rfl
          · obtain ⟨same, tail⟩ := refused unanswered
            exact ⟨by omega, lasts.run_tail ▸ tail⟩
      · rw [session, answer_step_eq_run goes, ← session]
        exact wholly
    | run => exact wholly

/-- A session after which nothing is left to ask for is the whole run. -/
theorem session_eq_whole (i : Integrator α σ) {demands : List Demand}
    (ended : (i.session demands).answered = false ∨
      ¬ (i.session demands).after.lifecycle.IsLive) :
    i.session demands = i.session [.run] := by
  obtain ⟨n, lasts⟩ := i.exists_lasts
  obtain ⟨last, result⟩ := lasts.run
  obtain ⟨k, within, after, trace, refused⟩ := session_calls lasts demands
  rw [session_run]
  cases answered : (i.session demands).answered with
  | false =>
    obtain ⟨rfl, unanswered⟩ := refused answered
    ext1
    · rw [after, answer, last]
    · rw [trace, answer, lasts.loopCommits]
    · rw [answered, answer, unanswered]
      rfl
  | true =>
    have dead : ¬ (i.afterCalls k).lifecycle.IsLive := by
      rw [← after]
      exact ended.resolve_left (by simp [answered])
    -- The calls that are left change nothing and commit nothing.
    obtain ⟨d, more⟩ := Nat.exists_eq_add_of_le within
    have same : i.afterCalls (n + 1) = i.afterCalls k := by
      rw [more, afterCalls_add, afterCalls_of_not_live dead]
    have unrefused : i.run.result ≠ .refused := by
      rw [Ne, refused_iff_isLive result, ← afterCalls_succ, same]
      exact dead
    ext1
    · rw [after, answer, last, same]
    · rw [trace, answer, lasts.loopCommits, more, history_add, history_of_not_live dead,
        List.append_nil]
    · rw [answered, answer, RunResult.isAnswer_iff.mpr unrefused]

/-- What every call that goes on preserves holds of a live run that a session has left. -/
theorem live_session_induction {P : Integrator α σ → Prop} {i : Integrator α σ} (begun : P i)
    (call : ∀ j, P j → j.stepOnce.result = .stepping → P j.stepOnce.after)
    {demands : List Demand} (answered : (i.session demands).answered = true)
    (live : (i.session demands).after.lifecycle.IsLive) : P (i.session demands).after := by
  induction demands generalizing i with
  | nil => exact begun
  | cons demand rest ih =>
    -- A whole run that was answered is over.
    have wholly (first : (i.session (.run :: rest)).answered = true)
        (onward : (i.session (.run :: rest)).after.lifecycle.IsLive) : False := by
      obtain ⟨n, lasts⟩ := i.exists_lasts
      obtain ⟨last, result⟩ := lasts.run
      rw [session_run] at first onward
      rw [answer, last, afterCalls_succ, ← refused_iff_isLive result] at onward
      exact RunResult.isAnswer_iff.mp first onward
    cases demand with
    | step =>
      by_cases goes : i.stepOnce.result = .stepping
      · have made : i.session (.step :: rest) =
            { i.stepOnce.after.session rest with
              trace := i.committed?.toList ++ (i.stepOnce.after.session rest).trace } := by
          rw [session_step, goes]
          rfl
        rw [made] at answered live ⊢
        exact ih (call i begun goes) answered live
      · rw [session, answer_step_eq_run goes, ← session] at answered live
        exact (wholly answered live).elim
    | run => exact (wholly answered live).elim

/-- Sinks that answer alike do not change a request. -/
theorem answer_mapSink {f : σ → τ} (alike : AnswersAlike f) (i : Integrator α σ)
    (demand : Demand) : (i.mapSink f).answer demand = (i.answer demand).mapSink f := by
  cases demand with
  | step =>
    have same : (i.mapSink f).committed? = i.committed? := rfl
    rw [answer, stepOnce_mapSink alike, same]
    rfl
  | run =>
    obtain ⟨n, lasts⟩ := i.exists_lasts
    rw [answer, (lasts.mapSink alike).loopCommits, history_mapSink alike, ← lasts.loopCommits,
      run_after, run_result, loop_mapSink alike]
    rfl

/-- Sinks that answer alike do not change a session. -/
theorem session_mapSink {f : σ → τ} (alike : AnswersAlike f) (i : Integrator α σ)
    (demands : List Demand) :
    (i.mapSink f).session demands = (i.session demands).mapSink f := by
  induction demands generalizing i with
  | nil => rfl
  | cons demand rest ih =>
    rw [session, session, answer_mapSink alike]
    cases answered : (i.answer demand).answered with
    | false => simp [Session.mapSink, answered]
    | true =>
      have later := ih (i.answer demand).after
      simp [Session.mapSink, answered, later]

/-- A run that a session has brought to its end has the summary of the whole run. -/
theorem run_result_of_session {i : Integrator α σ} {demands : List Demand}
    {reason : TerminationReason}
    (ended : (i.session demands).after.lifecycle = .terminating reason) :
    i.run.result = .summary ((i.session demands).after.summary reason) := by
  have dead : ¬ (i.session demands).after.lifecycle.IsLive := by simp [ended]
  have whole := i.session_eq_whole (.inr dead)
  rw [whole, session_run] at ended ⊢
  obtain ⟨n, lasts⟩ := i.exists_lasts
  obtain ⟨last, result⟩ := lasts.run
  rw [answer, last] at ended ⊢
  have moves := (i.afterCalls n).moves_stepOnce
  rw [← afterCalls_succ, ended] at moves
  simp only [runResult?, moves.terminated, Option.some.injEq] at result
  exact result.symm

/-- Each step of a session was made by a live run from the state that the step before it left, and
what every call preserves held of that run. -/
theorem step_of_session {P : Integrator α σ → Prop} {i : Integrator α σ} (begun : P i)
    (call : ∀ j, P j → P j.stepOnce.after) {demands : List Demand} {k : Nat} {r : Committed α}
    (member : (i.session demands).trace[k]? = some r) :
    ∃ j s, P j ∧ j.lifecycle.IsLive ∧ j.inputs = .ok s ∧ j.advance s = .ok r ∧
      (i.state :: (i.session demands).trace.map (·.state))[k]? = some j.state := by
  obtain ⟨n, lasts⟩ := i.exists_lasts
  obtain ⟨calls, _, _, trace, _⟩ := session_calls lasts demands
  rw [trace] at member ⊢
  obtain ⟨m, committed, before⟩ := exists_of_getElem?_history member
  obtain ⟨live, s, gathered, passed⟩ := committed?_eq_some_iff.mp committed
  refine ⟨i.afterCalls m, s, afterCalls_induction begun call m, live, gathered, passed, ?_⟩
  rw [state_afterCalls, before]
  cases k with
  | zero => simp
  | succ k =>
    have room := (List.getElem?_eq_some_iff.mp member).1
    simp [List.getLast?_take, List.getElem?_eq_getElem (show k < (i.history calls).length by omega)]

/-- An observer does not change the trace of a session. -/
theorem trace_observed (i : Integrator α σ) (demands : List Demand) :
    (i.observed.session demands).trace = (i.session demands).trace :=
  congrArg Session.trace
    (session_mapSink (f := Observed.sink) Observed.answersAlike i.observed demands).symm

/-- The trace of a session is what was committed and handed over in it. -/
theorem commits_session (i : Integrator α (Observed α σ)) (demands : List Demand) :
    i.Commits (i.session demands).trace (i.session demands).after := by
  obtain ⟨n, lasts⟩ := i.exists_lasts
  obtain ⟨k, _, after, trace, _⟩ := session_calls lasts demands
  rw [after, trace]
  exact i.commits_afterCalls k

/-! ## Main result -/

/-- **The driver does not matter.** Drive a run by any requests for one step or for all steps that
are left, and compare the session with a single request for the whole run. The trace of the session
is a prefix of that of the whole run; once the run is over, or a bin has refused a withdrawal, the
two sessions are equal, sink and random numbers included. The trace is what was committed: an
observer, which changes nothing, sees the state, the accounts and the counter of the last step of
the trace, and has been handed the records of all its steps.

From where the session ends, one more call moves the lifecycle from a live stage to a later one, and
no request changes a run that is over. Its answers are those of the end: the reason and the summary
of the whole run, or the number of the step that failed. -/
theorem driver_independence (i : Integrator α σ) (demands : List Demand) :
    (i.session demands).trace <+: (i.session [.run]).trace ∧
    ((i.session demands).answered = false ∨ ¬ (i.session demands).after.lifecycle.IsLive →
      i.session demands = i.session [.run]) ∧
    (i.observed.Commits (i.session demands).trace (i.observed.session demands).after ∧
      (i.observed.session demands).mapSink Observed.sink = i.session demands) ∧
    ∀ j, (i.session demands).after = j →
      j.lifecycle.Moves j.steps j.stepOnce.result j.stepOnce.after.lifecycle ∧
      (¬ j.lifecycle.IsLive → ∀ more,
        j.session more = { after := j, trace := [], answered := true }) ∧
      (∀ reason, j.lifecycle = .terminating reason →
        j.stepOnce.result = .terminated reason ∧ j.run.result = .summary (j.summary reason) ∧
          i.run.result = .summary (j.summary reason)) ∧
      (∀ step, j.lifecycle = .failed step →
        j.stepOnce.result = .error (.halted step) ∧ j.run.result = .error (.halted step)) := by
  obtain ⟨n, lasts⟩ := i.exists_lasts
  obtain ⟨k, within, _, trace, _⟩ := session_calls lasts demands
  refine ⟨?_, i.session_eq_whole, ⟨?_, (session_mapSink Observed.answersAlike _ _).symm⟩, ?_⟩
  · obtain ⟨d, more⟩ := Nat.exists_eq_add_of_le within
    rw [session_run, answer, trace, lasts.loopCommits, more, history_add]
    exact List.prefix_append _ _
  · rw [← trace_observed]
    exact i.observed.commits_session demands
  · rintro j rfl
    refine ⟨moves_stepOnce _, fun dead more => session_of_not_live dead more, ?_, ?_⟩
    · intro reason stage
      obtain ⟨ended, _, summary⟩ := run_of_terminating stage
      exact ⟨ended, summary, run_result_of_session stage⟩
    · intro step stage
      have dead : ¬ (i.session demands).after.lifecycle.IsLive := by simp [stage]
      obtain ⟨_, _, result, _⟩ := stepOnce_run_of_not_live dead
      have halted : (i.session demands).after.stepOnce.result = .error (.halted step) := by
        simp [stepOnce, stage]
      refine ⟨halted, ?_⟩
      simpa [runResult?, halted, eq_comm] using result

end Integrator
end DebrisDisk
