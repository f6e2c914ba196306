import DebrisDisk.Proofs.Trajectory

/-!
# The course of a call

A call on a live run takes one of seven courses. `Integrator.Course` lists them, each with the run
it leaves and the answer it gives, so that a statement about calls is a case analysis over this
list. In every course the sink learns of a step only after the step was committed.

A run is driven by requests for one step or for all steps that are left, and between two requests
something may happen to its sink: a reader takes what was sent, or goes away. A request for a whole
run is a number of calls that make one step each, so what every call preserves is preserved by every
sequence of requests.

## Main results

* `Integrator.stepOnce_course`: every call on a live run takes one of the courses.
* `Integrator.loop_calls`: a whole run is a number of calls, all but the last of which go on.
* `Integrator.afterRequests_induction`: what every call preserves holds after every sequence of
  requests.
-/

namespace DebrisDisk
open Scalar DiagnosticsSink
variable {α σ : Type}

namespace Integrator

/-! ## What a step replaces -/

section Fields
variable (i : Integrator α σ) (s : StepInputs α) (r : Committed α)

@[simp] theorem config_started : (i.started s).config = i.config := rfl
@[simp] theorem state_started : (i.started s).state = i.state := rfl
@[simp] theorem ledger_started : (i.started s).ledger = i.ledger := rfl
@[simp] theorem sink_started : (i.started s).sink = i.sink := rfl
@[simp] theorem horizon_started : (i.started s).horizon = i.horizon := rfl
@[simp] theorem plan_started : (i.started s).plan = some s.plan := rfl
@[simp] theorem lifecycle_started : (i.started s).lifecycle = i.lifecycle := rfl
@[simp] theorem steps_started : (i.started s).steps = i.steps := rfl

@[simp] theorem config_commit : (i.commit r).config = i.config := rfl
@[simp] theorem state_commit : (i.commit r).state = r.state := rfl
@[simp] theorem ledger_commit : (i.commit r).ledger = r.ledger := rfl
@[simp] theorem sink_commit : (i.commit r).sink = i.sink := rfl
@[simp] theorem horizon_commit : (i.commit r).horizon = i.horizon := rfl
@[simp] theorem plan_commit : (i.commit r).plan = i.plan := rfl
@[simp] theorem lifecycle_commit : (i.commit r).lifecycle = i.lifecycle := rfl
@[simp] theorem steps_commit : (i.commit r).steps = i.steps + 1 := rfl

end Fields

end Integrator

/-! ## Stages -/

/-- Steps can still be made. -/
def Lifecycle.IsLive (l : Lifecycle) : Prop := l = .initializing ∨ l = .stepping

@[simp] theorem Lifecycle.isLive_initializing : Lifecycle.initializing.IsLive := .inl rfl
@[simp] theorem Lifecycle.isLive_stepping : Lifecycle.stepping.IsLive := .inr rfl

@[simp] theorem Lifecycle.not_isLive_terminating (reason : TerminationReason) :
    ¬ (Lifecycle.terminating reason).IsLive := by
  simp [IsLive]

@[simp] theorem Lifecycle.not_isLive_failed (step : Nat) : ¬ (Lifecycle.failed step).IsLive := by
  simp [IsLive]

namespace Integrator
variable [Scalar α]

/-! ## The ends of a run -/

/-- Hardly any mass is left. -/
def IsDepleted (i : Integrator α σ) : Prop :=
  i.state.totalMass.kilograms < i.config.numerics.massFloor * i.ledger.initial

/-- The time has reached the horizon. -/
def HasArrived (i : Integrator α σ) (p : StepPlan α) : Prop :=
  p.horizon.seconds ≤ i.state.time.seconds

/-- The run ends for a reason: depletion comes before the horizon, and the horizon before the step
budget. A step that was planned to land reaches the horizon. -/
def EndsFor (i : Integrator α σ) (p : StepPlan α) (lands : Bool) : TerminationReason → Prop
  | .massDepleted => i.IsDepleted
  | .timeHorizon => ¬ i.IsDepleted ∧ (lands = true ∨ i.HasArrived p)
  | .stepLimit => ¬ i.IsDepleted ∧ ¬ (lands = true ∨ i.HasArrived p) ∧ p.maxSteps ≤ i.steps

/-- A run goes on while none of the three ends is met. -/
theorem ending?_eq_none_iff {i : Integrator α σ} {p : StepPlan α} {lands : Bool} :
    i.ending? p lands = none ↔
      ¬ i.IsDepleted ∧ ¬ (lands = true ∨ i.HasArrived p) ∧ i.steps < p.maxSteps := by
  unfold ending? IsDepleted HasArrived
  split
  · simp_all
  · split
    · simp_all
    · split <;> simp_all

/-- A run ends for the first reason that is met. -/
theorem ending?_eq_some_iff {i : Integrator α σ} {p : StepPlan α} {lands : Bool}
    {reason : TerminationReason} :
    i.ending? p lands = some reason ↔ i.EndsFor p lands reason := by
  unfold ending? EndsFor IsDepleted HasArrived
  split
  · cases reason <;> simp_all
  · split
    · cases reason <;> simp_all
    · split <;> cases reason <;> simp_all

end Integrator

namespace Integrator
variable [Scalar α] [DiagnosticsSink α σ]

/-! ## One call -/

/-- The courses of a call on a live run: the run afterwards and the answer. -/
inductive Course (i : Integrator α σ) : Integrator α σ → StepResult α → Prop where
  | unprepared (e : StepError α) (gathered : i.inputs = .error e) :
      Course i { i with sink := (finish i.sink).1, lifecycle := .failed i.steps }
        (.error (.step i.steps e))
  | refused (s : StepInputs α) (gathered : i.inputs = .ok s)
      (stuck : i.advance s = .error .refused) : Course i (i.started s) .refused
  | violated (s : StepInputs α) (e : StepError α) (gathered : i.inputs = .ok s)
      (stuck : i.advance s = .error (.failed e)) :
      Course i { i.started s with sink := (finish i.sink).1, lifecycle := .failed i.steps }
        (.error (.step i.steps e))
  /-- The step was committed, and the sink refused its record. -/
  | unsent (s : StepInputs α) (r : Committed α) (gathered : i.inputs = .ok s)
      (passed : i.advance s = .ok r) (cause : SinkError)
      (sent : (emit i.sink r.record).2 = .error cause) :
      Course i
        { (i.started s).commit r with
          sink := (finish (emit i.sink r.record).1).1, lifecycle := .failed i.steps }
        (.error (.step i.steps (.sink cause)))
  | onward (s : StepInputs α) (r : Committed α) (gathered : i.inputs = .ok s)
      (passed : i.advance s = .ok r) (sent : (emit i.sink r.record).2 = .ok ())
      (ending : ((i.started s).commit r).ending? s.plan s.lands = none) :
      Course i
        { (i.started s).commit r with
          sink := (emit i.sink r.record).1, lifecycle := .stepping }
        .stepping
  /-- The step was committed and ended the run, and the sink could not be finished. -/
  | unfinished (s : StepInputs α) (r : Committed α) (gathered : i.inputs = .ok s)
      (passed : i.advance s = .ok r) (sent : (emit i.sink r.record).2 = .ok ())
      (reason : TerminationReason)
      (ending : ((i.started s).commit r).ending? s.plan s.lands = some reason) (cause : SinkError)
      (finished : (finish (emit i.sink r.record).1).2 = .error cause) :
      Course i
        { (i.started s).commit r with
          sink := (finish (finish (emit i.sink r.record).1).1).1, lifecycle := .failed i.steps }
        (.error (.step i.steps (.sink cause)))
  | ended (s : StepInputs α) (r : Committed α) (gathered : i.inputs = .ok s)
      (passed : i.advance s = .ok r) (sent : (emit i.sink r.record).2 = .ok ())
      (reason : TerminationReason)
      (ending : ((i.started s).commit r).ending? s.plan s.lands = some reason)
      (finished : (finish (emit i.sink r.record).1).2 = .ok ()) :
      Course i
        { (i.started s).commit r with
          sink := (finish (emit i.sink r.record).1).1, lifecycle := .terminating reason }
        (.terminated reason)

/-- A record that the sink refuses is all it is told by a step. -/
theorem handOver_of_unsent {i : Integrator α σ} {record : StepRecord α} {cause : SinkError}
    (sent : (emit i.sink record).2 = .error cause) (p : StepPlan α) (lands : Bool) :
    (i.handOver p lands record).after = { i with sink := (emit i.sink record).1 } ∧
      (i.handOver p lands record).result = .error (.failed (.sink cause)) := by
  unfold handOver
  simp [sent]

/-- A record that the sink takes is all it is told by a step after which the run goes on. -/
theorem handOver_of_onward {i : Integrator α σ} {record : StepRecord α} {p : StepPlan α}
    {lands : Bool} (sent : (emit i.sink record).2 = .ok ()) (onward : i.ending? p lands = none) :
    (i.handOver p lands record).after = { i with sink := (emit i.sink record).1 } ∧
      (i.handOver p lands record).result = .ok none := by
  have same : ({ i with sink := (emit i.sink record).1 } : Integrator α σ).ending? p lands = none :=
    onward
  unfold handOver
  simp [sent, same]

/-- A step that ends the run hands over its record and finishes the sink. -/
theorem handOver_of_ending {i : Integrator α σ} {record : StepRecord α} {p : StepPlan α}
    {lands : Bool} {error : α} {reason : TerminationReason}
    (passed : i.ledger.check = .ok (error, i.ledger)) (sent : (emit i.sink record).2 = .ok ())
    (ending : i.ending? p lands = some reason) :
    (i.handOver p lands record).after =
        { i with sink := (finish (emit i.sink record).1).1 } ∧
      (i.handOver p lands record).result = match (finish (emit i.sink record).1).2 with
        | .error e => .error (.failed (.sink e))
        | .ok () => .ok (some reason) := by
  have same : ({ i with sink := (emit i.sink record).1 } : Integrator α σ).ending? p lands
      = some reason := ending
  -- The sink has changed meanwhile, the accounts have not.
  have ended := terminate_of_check (i := { i with sink := (emit i.sink record).1 }) passed reason
  unfold handOver
  simp only [sent, same]
  exact ended

/-- Every call on a live run takes one of the courses. -/
theorem stepOnce_course {i : Integrator α σ} (live : i.lifecycle.IsLive) :
    i.Course i.stepOnce.after i.stepOnce.result := by
  rw [stepOnce_of_live live, attempt_eq]
  cases gathered : i.inputs with
  | error e => exact .unprepared e gathered
  | ok s =>
    cases stuck : i.advance s with
    | error o =>
      cases o with
      | refused => simpa [stuck] using .refused s gathered stuck
      | failed e => simpa [stuck, fail] using .violated s e gathered stuck
    | ok r =>
      have passed : ((i.started s).commit r).ledger.check
          = .ok (r.ledger.errorPercent, ((i.started s).commit r).ledger) :=
        Evaluation.check_of_advance stuck
      cases sent : (emit i.sink r.record).2 with
      | error cause =>
        obtain ⟨after, result⟩ :=
          handOver_of_unsent (i := (i.started s).commit r) sent s.plan s.lands
        simpa [stuck, fail, after, result] using .unsent s r gathered stuck cause sent
      | ok _ =>
        cases ending : ((i.started s).commit r).ending? s.plan s.lands with
        | none =>
          obtain ⟨after, result⟩ :=
            handOver_of_onward (i := (i.started s).commit r) sent ending
          simpa [stuck, after, result] using .onward s r gathered stuck sent ending
        | some reason =>
          obtain ⟨after, result⟩ :=
            handOver_of_ending (i := (i.started s).commit r) passed sent ending
          simp only [sink_commit, sink_started] at after result
          cases finished : (finish (emit i.sink r.record).1).2 with
          | error cause =>
            rw [finished] at result
            simpa [stuck, fail, after, result] using
              .unfinished s r gathered stuck sent reason ending cause finished
          | ok _ =>
            rw [finished] at result
            simpa [stuck, after, result] using
              .ended s r gathered stuck sent reason ending finished

/-- A call fails over the surface temperature just when a live run has none. -/
theorem stepOnce_eq_temperature_iff {i : Integrator α σ} {step : Nat} {e : TemperatureError α} :
    i.stepOnce.result = .error (.step step (.temperature e)) ↔
      i.lifecycle.IsLive ∧ step = i.steps ∧
        i.config.surfaceAt i.state.time = .error (.temperature e) := by
  have missing : i.inputs = .error (.temperature e) ↔
      i.config.surfaceAt i.state.time = .error (.temperature e) :=
    inputs_eq_error_iff.trans RunConfig.evaluate_eq_temperature_iff
  rw [← missing]
  by_cases live : i.lifecycle.IsLive
  · have course := stepOnce_course live
    generalize i.stepOnce.after = after, i.stepOnce.result = answer at course
    cases course with
    | unprepared e' gathered => simp [live, gathered, eq_comm]
    | violated s e' gathered stuck =>
      rcases Evaluation.advance_eq_error stuck with ⟨_, other⟩ | ⟨_, _, cause, _, failed, same⟩
      · cases other
      · obtain rfl : e' = cause := by simpa using same
        simp [gathered, (MassLedger.check_eq_error failed).2]
    | refused s gathered stuck => simp [gathered]
    | unsent s r gathered passed cause sent => simp [gathered]
    | onward s r gathered passed sent ending => simp [gathered]
    | unfinished s r gathered passed sent reason ending cause finished => simp [gathered]
    | ended s r gathered passed sent reason ending finished => simp [gathered]
  · cases stage : i.lifecycle with
    | initializing => simp [stage] at live
    | stepping => simp [stage] at live
    | terminating reason => simp [stepOnce, stage]
    | failed halted => simp [stepOnce, stage]

/-- A call after the end of a run changes nothing. -/
theorem stepOnce_of_not_live {i : Integrator α σ} (dead : ¬ i.lifecycle.IsLive) :
    i.stepOnce.after = i ∧ i.stepOnce.result ≠ .stepping := by
  cases stage : i.lifecycle with
  | initializing => simp [stage] at dead
  | stepping => simp [stage] at dead
  | terminating reason => simp [stepOnce, stage]
  | failed step => simp [stepOnce, stage]

/-- A call that announces the end of the run leaves it there. -/
theorem lifecycle_of_terminated {i : Integrator α σ} {reason : TerminationReason}
    (ended : i.stepOnce.result = .terminated reason) :
    i.stepOnce.after.lifecycle = .terminating reason := by
  by_cases live : i.lifecycle.IsLive
  · have course := stepOnce_course live
    rw [ended] at course
    generalize i.stepOnce.after = after at course
    cases course with
    | ended s r gathered passed sent reason ending finished => rfl
  · cases stage : i.lifecycle with
    | initializing => simp [stage] at live
    | stepping => simp [stage] at live
    | terminating other => simp_all [stepOnce]
    | failed step => simp [stepOnce, stage] at ended

/-- A run is live after a call that goes on or is refused, and over after any other. -/
theorem isLive_stepOnce_iff (i : Integrator α σ) :
    i.stepOnce.after.lifecycle.IsLive ↔
      i.stepOnce.result = .stepping ∨ i.stepOnce.result = .refused := by
  by_cases live : i.lifecycle.IsLive
  · have course := stepOnce_course live
    generalize i.stepOnce.after = after, i.stepOnce.result = answer at course
    cases course <;> simp [live]
  · have refused : i.stepOnce.result ≠ .refused := fun h => live (stepOnce_eq_refused_iff.mp h).1
    rw [(stepOnce_of_not_live live).1]
    simp [live, refused, (stepOnce_of_not_live live).2]

/-! ## Whole runs -/

theorem afterCalls_add (i : Integrator α σ) (m n : Nat) :
    i.afterCalls (m + n) = (i.afterCalls m).afterCalls n := by
  induction n with
  | zero => rfl
  | succ n ih => rw [← Nat.add_assoc, afterCalls_succ, afterCalls_succ, ih]

/-- The first of several calls comes first. -/
theorem afterCalls_succ_first (i : Integrator α σ) (n : Nat) :
    i.afterCalls (n + 1) = i.stepOnce.after.afterCalls n := by
  rw [Nat.add_comm, afterCalls_add]
  rfl

/-- Calls after the end of a run change nothing. -/
theorem afterCalls_of_not_live {i : Integrator α σ} (dead : ¬ i.lifecycle.IsLive) (n : Nat) :
    i.afterCalls n = i :=
  afterCalls_induction (P := (· = i)) rfl
    (fun j same => by rw [same]; exact (stepOnce_of_not_live dead).1) n

/-- The answer to a request for a whole run whose last call is the given one; absent when the run
goes on. -/
def runResult? (last : Progress α σ (StepResult α)) : Option (RunResult α) :=
  match last.result with
  | .stepping => none
  | .terminated reason => some (.summary (last.after.summary reason))
  | .error e => some (.error e)
  | .refused => some .refused

/-- A request for a whole run is a number of calls, all but the last of which go on. -/
theorem loop_calls (i : Integrator α σ) :
    ∃ n, (∀ k < n, (i.afterCalls k).stepOnce.result = .stepping) ∧
      i.loop.after = i.afterCalls (n + 1) ∧
      runResult? (i.afterCalls n).stepOnce = some i.loop.result := by
  induction i using loop.induct with
  | case1 i after events made ih =>
    obtain ⟨n, onward, last, result⟩ := ih
    have shifted (k : Nat) : i.afterCalls (k + 1) = after.afterCalls k := by
      rw [afterCalls_succ_first, made]
    have unfolded : i.loop.after = after.loop.after ∧ i.loop.result = after.loop.result := by
      rw [loop, made]
      exact ⟨rfl, rfl⟩
    refine ⟨n + 1, fun k hk => ?_, ?_, ?_⟩
    · cases k with
      | zero => simp [made]
      | succ k =>
        rw [shifted]
        exact onward k (by omega)
    · rw [unfolded.1, last, shifted]
    · rw [shifted, result, unfolded.2]
  | case2 i after reason events made =>
    refine ⟨0, by omega, ?_, ?_⟩ <;> rw [loop, made] <;> simp [made, runResult?]
  | case3 i after e events made =>
    refine ⟨0, by omega, ?_, ?_⟩ <;> rw [loop, made] <;> simp [made, runResult?]
  | case4 i after events made =>
    refine ⟨0, by omega, ?_, ?_⟩ <;> rw [loop, made] <;> simp [made, runResult?]

/-- A request for a whole run is one call when the run does not go on after it. -/
theorem loop_of_not_stepping {i : Integrator α σ} (stops : i.stepOnce.result ≠ .stepping) :
    i.loop.after = i.stepOnce.after ∧ runResult? i.stepOnce = some i.loop.result := by
  obtain ⟨n, onward, last, result⟩ := i.loop_calls
  cases n with
  | zero => exact ⟨last, result⟩
  | succ n => exact absurd (onward 0 (by omega)) stops

omit [DiagnosticsSink α σ] in
/-- A request for a whole run is refused just when its last call is. -/
theorem refused_iff {call : Progress α σ (StepResult α)} {answer : RunResult α}
    (given : runResult? call = some answer) : answer = .refused ↔ call.result = .refused := by
  unfold runResult? at given
  split at given <;> simp_all [eq_comm]

/-- A request for a whole run is refused just when it leaves the run live. -/
theorem refused_iff_isLive {i : Integrator α σ} {answer : RunResult α}
    (given : runResult? i.stepOnce = some answer) :
    answer = .refused ↔ i.stepOnce.after.lifecycle.IsLive := by
  have stops : i.stepOnce.result ≠ .stepping := by
    intro goes
    simp [runResult?, goes] at given
  rw [refused_iff given, isLive_stepOnce_iff]
  simp [stops]

/-- A regular answer comes from a call that ended the run. -/
theorem terminated_of_summary {i : Integrator α σ} {s : RunSummary α}
    (answer : runResult? i.stepOnce = some (.summary s)) :
    i.stepOnce.result = .terminated s.reason ∧ s = i.stepOnce.after.summary s.reason := by
  cases given : i.stepOnce.result with
  | stepping => simp [runResult?, given] at answer
  | terminated reason =>
    simp only [runResult?, given, Option.some.injEq, RunResult.summary.injEq] at answer
    subst answer
    exact ⟨rfl, rfl⟩
  | error e => simp [runResult?, given] at answer
  | refused => simp [runResult?, given] at answer

@[simp] theorem run_after (i : Integrator α σ) : i.run.after = i.loop.after := rfl
@[simp] theorem run_result (i : Integrator α σ) : i.run.result = i.loop.result := rfl

/-- A run that is over is left as it is by every request, and its answers are the same again. -/
theorem stepOnce_run_of_not_live {i : Integrator α σ} (dead : ¬ i.lifecycle.IsLive) :
    i.stepOnce.after = i ∧ i.run.after = i ∧
      runResult? i.stepOnce = some i.run.result ∧ i.stepOnce.result ≠ .refused := by
  obtain ⟨kept, stops⟩ := stepOnce_of_not_live dead
  obtain ⟨last, result⟩ := loop_of_not_stepping stops
  exact ⟨kept, by rw [run_after, last, kept], result,
    fun refused => dead (stepOnce_eq_refused_iff.mp refused).1⟩

/-- A run that has ended gives its summary again. -/
theorem run_of_terminating {i : Integrator α σ} {reason : TerminationReason}
    (stage : i.lifecycle = .terminating reason) :
    i.stepOnce.result = .terminated reason ∧ i.run.after = i ∧
      i.run.result = .summary (i.summary reason) := by
  obtain ⟨kept, unchanged, result, _⟩ :=
    stepOnce_run_of_not_live (i := i) (by simp [stage])
  have ended : i.stepOnce.result = .terminated reason := by simp [stepOnce, stage]
  refine ⟨ended, unchanged, ?_⟩
  simpa [runResult?, ended, kept, eq_comm] using result

end Integrator

/-! ## Requests -/

/-- What may happen to a run. -/
inductive Request (σ : Type) where
  | step
  | run
  /-- Something happens to the sink between two answers. -/
  | meanwhile (change : σ → σ)

namespace Integrator
variable [Scalar α] [DiagnosticsSink α σ]

/-- The run after a request was answered. -/
def serve (i : Integrator α σ) : Request σ → Integrator α σ
  | .step => i.stepOnce.after
  | .run => i.run.after
  | .meanwhile change => { i with sink := change i.sink }

/-- The run after a sequence of requests was answered. -/
def afterRequests (i : Integrator α σ) (requests : List (Request σ)) : Integrator α σ :=
  requests.foldl serve i

/-- What every call preserves, and whatever may happen to the sink, holds after every sequence of
requests. -/
theorem afterRequests_induction {P : Integrator α σ → Prop} {i : Integrator α σ}
    {requests : List (Request σ)} (start : P i) (call : ∀ j, P j → P j.stepOnce.after)
    (meanwhile : ∀ j change, .meanwhile change ∈ requests → P j →
      P { j with sink := change j.sink }) : P (i.afterRequests requests) := by
  induction requests generalizing i with
  | nil => exact start
  | cons request rest ih =>
    refine ih ?_ fun j change h => meanwhile j change (List.mem_cons_of_mem _ h)
    cases request with
    | step => exact call i start
    | run =>
      obtain ⟨n, _, last, _⟩ := i.loop_calls
      rw [serve, run_after, last]
      exact afterCalls_induction start call (n + 1)
    | meanwhile change => exact meanwhile i change List.mem_cons_self start

end Integrator
end DebrisDisk
