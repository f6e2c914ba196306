import DebrisDisk.Proofs.Exact.Enduring
import DebrisDisk.Proofs.StepCounts

/-!
# The end of a run

The first step that gathers its inputs plans the run, and the plan stays. Every call that goes on
commits one more step, and a run goes on only while its counter is below the budget of the plan, so
a run is over after as many calls as the budget allows. `Integrator.IsPaced` is the invariant: a
live run has none of the three ends of a run behind it, and a run that ended regularly has met the
first of them.

## Main results

* `Integrator.IsRunOf.plan_mem`: what the plan of a run is.
* `Integrator.isPaced_afterCalls`: every accepted run keeps to its plan.
* `Integrator.run_ends_within_plan`: how many calls a run takes, and what its end means.
-/

namespace DebrisDisk
open Scalar DiagnosticsSink

namespace Integrator
variable {α σ : Type} [Scalar α] {i : Integrator α σ} {c : RunConfig α} {q : Preparation α}

/-! ## The plan -/

/-- A planned run is not planned again. -/
theorem plan_of_inputs {s : StepInputs α} {p : StepPlan α} (inputs : s.IsOf i)
    (planned : i.plan = some p) : s.plan = p := by
  rw [inputs.plan]
  simp [Integrator.planned, planned]

/-- The plan of a run leads to its horizon, which can be compared, and its step budget is positive:
the configured one, or one that fits a 64-bit word. -/
theorem IsRunOf.plan_mem [Counting α] (run : i.IsRunOf c q) {p : StepPlan α}
    (planned : i.plan = some p) :
    p.horizon = q.horizon ∧ p.horizon.seconds ≤ p.horizon.seconds ∧ 1 ≤ p.maxSteps ∧
      (∀ n, c.numerics.maxSteps = some n → p.maxSteps = n) ∧
      (c.numerics.maxSteps = none → p.maxSteps < 2 ^ 64) := by
  obtain ⟨valid, horizon, _⟩ := RunConfig.prepare_eq_ok run.prepared
  obtain ⟨timescales, _, rfl⟩ := run.plan p planned
  have positive := (NumericsSettings.horizon_eq_ok_iff.mp horizon).2.1
  have budget := NumericsSettings.stepBudget_mem q.horizon.seconds
    (c.numerics.stepLength q.horizon.seconds timescales)
  refine ⟨rfl, Counting.le_self _ positive, ?_, ?_, ?_⟩
  · cases configured : c.numerics.maxSteps with
    | none => simpa [NumericsSettings.plan, configured] using budget.1
    | some n =>
      have positive : 1 ≤ n := valid.maxSteps n configured
      simpa [NumericsSettings.plan, configured] using positive
  · intro n configured
    simp [NumericsSettings.plan, configured]
  · intro configured
    simpa [NumericsSettings.plan, configured] using budget.2

/-! ## Keeping to the plan -/

/-- A run keeps to its plan. -/
structure IsPaced (i : Integrator α σ) : Prop where
  unplanned : i.plan = none → i.steps = 0
  within : ∀ p, i.plan = some p → i.steps ≤ p.maxSteps
  stepping : i.lifecycle = .stepping → 0 < i.steps
  /-- A live run is neither depleted nor at the horizon, and has steps left. -/
  onward : ∀ p, i.plan = some p → i.lifecycle.IsLive → 0 < i.steps →
    ¬ i.IsDepleted ∧ ¬ i.HasArrived p ∧ i.steps < p.maxSteps
  /-- A run that ended regularly has met an end. -/
  ended : ∀ reason, i.lifecycle = .terminating reason →
    ∃ p, i.plan = some p ∧ i.EndsFor p false reason

/-- A new run keeps to its plan. -/
theorem isPaced_of_initializing (unplanned : i.plan = none) (zero : i.steps = 0)
    (stage : i.lifecycle = .initializing) : i.IsPaced where
  unplanned _ := zero
  within := by simp [unplanned]
  stepping := by simp [stage]
  onward := by simp [unplanned]
  ended := by simp [stage]

/-- Of a run that failed after it was planned, only the budget counts. -/
theorem isPaced_of_failed {p : StepPlan α} {step : ℕ} (planned : i.plan = some p)
    (within : i.steps ≤ p.maxSteps) (stage : i.lifecycle = .failed step) : i.IsPaced where
  unplanned := by simp [planned]
  within := by simpa [planned] using within
  stepping := by simp [stage]
  onward := by simp [stage]
  ended := by simp [stage]

/-- A run that has committed a step has a plan. -/
theorem IsPaced.exists_plan (paced : i.IsPaced) (positive : 0 < i.steps) :
    ∃ p, i.plan = some p :=
  Option.ne_none_iff_exists'.mp fun unplanned => positive.ne' (paced.unplanned unplanned)

/-- The inputs of a live run leave room for a step. -/
theorem IsPaced.room [Counting α] (run : i.IsRunOf c q) (paced : i.IsPaced)
    (live : i.lifecycle.IsLive) {s : StepInputs α} (inputs : s.IsOf i) :
    i.steps < s.plan.maxSteps := by
  have made := ((run.started inputs).plan_mem (plan_started i s)).2.2.1
  rcases Nat.eq_zero_or_pos i.steps with zero | positive
  · omega
  · obtain ⟨p, planned⟩ := paced.exists_plan positive
    rw [plan_of_inputs inputs planned]
    exact (paced.onward p planned live positive).2.2

/-- A step that lands reaches the horizon. -/
theorem endsFor_of_ending [Counting α] (run : i.IsRunOf c q) {s : StepInputs α}
    (inputs : s.IsOf i) {r : Committed α} (passed : i.advance s = .ok r)
    {reason : TerminationReason}
    (ending : ((i.started s).commit r).ending? s.plan s.lands = some reason) :
    ((i.started s).commit r).EndsFor s.plan false reason := by
  obtain ⟨_, _, _, _, _, state, _⟩ := Evaluation.advance_eq_ok passed
  have comparable := ((run.started inputs).plan_mem (plan_started i s)).2.1
  have lands : s.lands = true → ((i.started s).commit r).HasArrived s.plan := by
    intro lands
    simpa [HasArrived, state, Evaluation.stateAfter, lands] using comparable
  have met := ending?_eq_some_iff.mp ending
  cases reason with
  | massDepleted => exact met
  | timeHorizon => exact ⟨met.1, .inr (met.2.elim lands id)⟩
  | stepLimit => exact ⟨met.1, by simpa using fun arrived => met.2.1 (.inr arrived), met.2.2⟩

variable [DiagnosticsSink α σ]

/-- One call keeps to the plan. -/
theorem IsPaced.stepOnce [Counting α] (run : i.IsRunOf c q) (paced : i.IsPaced) :
    i.stepOnce.after.IsPaced := by
  by_cases live : i.lifecycle.IsLive
  · have room {s : StepInputs α} (gathered : i.inputs = .ok s) : i.steps < s.plan.maxSteps :=
      paced.room run live (inputs_eq_ok gathered)
    have course := stepOnce_course live
    generalize i.stepOnce.after = after, i.stepOnce.result = answer at course
    cases course with
    | unprepared e gathered =>
      exact { unplanned := paced.unplanned, within := paced.within
              stepping := by simp, onward := by simp, ended := by simp }
    | refused s gathered stuck =>
      refine { unplanned := by simp, within := ?_, stepping := paced.stepping, onward := ?_
               ended := ?_ }
      · rintro p ⟨⟩
        exact (room gathered).le
      · rintro p ⟨⟩ live positive
        obtain ⟨p, planned⟩ := paced.exists_plan positive
        rw [plan_of_inputs (inputs_eq_ok gathered) planned]
        exact paced.onward p planned live positive
      · intro reason stage
        simp only [lifecycle_started] at stage
        simp [stage] at live
    | violated s e gathered stuck => exact isPaced_of_failed rfl (room gathered).le rfl
    | unsent s r gathered passed cause sent => exact isPaced_of_failed rfl (room gathered) rfl
    | onward s r gathered passed sent ending =>
      obtain ⟨massive, afloat, below⟩ := ending?_eq_none_iff.mp ending
      refine { unplanned := by simp, within := ?_, stepping := by simp, onward := ?_
               ended := by simp }
      · rintro p ⟨⟩
        exact below.le
      · rintro p ⟨⟩ _ _
        exact ⟨massive, fun arrived => afloat (.inr arrived), below⟩
    | unfinished s r gathered passed sent reason ending cause finished =>
      exact isPaced_of_failed rfl (room gathered) rfl
    | ended s r gathered passed sent reason ending finished =>
      have met := endsFor_of_ending run (inputs_eq_ok gathered) passed ending
      refine { unplanned := by simp, within := ?_, stepping := by simp, onward := by simp
               ended := ?_ }
      · rintro p ⟨⟩
        exact room gathered
      · rintro reason ⟨⟩
        exact ⟨s.plan, rfl, met⟩
  · rw [(stepOnce_of_not_live live).1]
    exact paced

/-- Every accepted run keeps to its plan and its preparation. -/
theorem isPaced_afterCalls [Counting α] {sink : σ} {start : Integrator α σ}
    (accepted : Integrator.new c sink = .ok start) :
    ∃ q, q.ledger.initial = start.state.totalMass.kilograms ∧
      ∀ n, (start.afterCalls n).IsRunOf c q ∧ (start.afterCalls n).IsPaced := by
  obtain ⟨q, run, state, _⟩ := isRunOf_new accepted
  obtain ⟨_, _, _, bins, _, prepared, _, ledger⟩ := RunConfig.prepare_eq_ok run.prepared
  have paced : start.IsPaced := by
    obtain ⟨_, _, rfl⟩ := new_eq_ok accepted
    exact isPaced_of_initializing rfl rfl rfl
  refine ⟨q, ?_, afterCalls_induction (P := fun j => j.IsRunOf c q ∧ j.IsPaced) ⟨run, paced⟩
    fun _ kept => ⟨kept.1.stepOnce, kept.2.stepOnce kept.1⟩⟩
  rw [ledger, state, prepared]
  rfl

/-! ## Counting the calls -/

/-- A call keeps the plan, and it commits at most one step. -/
theorem plan_steps_stepOnce (i : Integrator α σ) :
    (∀ p, i.plan = some p → i.stepOnce.after.plan = some p) ∧ i.steps ≤ i.stepOnce.after.steps := by
  have effect := i.stepOnce_effect
  generalize i.stepOnce.after = after at effect
  cases effect with
  | kept sink lifecycle => exact ⟨fun _ planned => planned, le_rfl⟩
  | blocked s o gathered stuck sink lifecycle =>
    exact ⟨fun p planned => by simp [plan_of_inputs (inputs_eq_ok gathered) planned], le_rfl⟩
  | committed s r gathered passed sink lifecycle =>
    exact ⟨fun p planned => by simp [plan_of_inputs (inputs_eq_ok gathered) planned],
      Nat.le_succ _⟩

theorem plan_steps_afterCalls (i : Integrator α σ) (n : ℕ) :
    (∀ p, i.plan = some p → (i.afterCalls n).plan = some p) ∧ i.steps ≤ (i.afterCalls n).steps :=
  afterCalls_induction
    (P := fun j => (∀ p, i.plan = some p → j.plan = some p) ∧ i.steps ≤ j.steps)
    ⟨fun _ planned => planned, le_rfl⟩
    (fun j kept => ⟨fun p planned => j.plan_steps_stepOnce.1 p (kept.1 p planned),
      kept.2.trans j.plan_steps_stepOnce.2⟩) n

/-- A call after which the run goes on has committed one step. -/
theorem steps_of_stepping (goes : i.stepOnce.result = .stepping) :
    i.stepOnce.after.steps = i.steps + 1 ∧ i.stepOnce.after.lifecycle = .stepping := by
  by_cases live : i.lifecycle.IsLive
  · have course := stepOnce_course live
    rw [goes] at course
    generalize i.stepOnce.after = after at course
    cases course with
    | onward s r gathered passed sent ending => exact ⟨rfl, rfl⟩
  · exact absurd goes (stepOnce_of_not_live live).2

/-- Calls after which the run goes on commit a step each. -/
theorem steps_of_onward {n : ℕ}
    (onward : ∀ k < n, (i.afterCalls k).stepOnce.result = .stepping) :
    (i.afterCalls n).steps = i.steps + n ∧ (0 < n → (i.afterCalls n).lifecycle = .stepping) := by
  induction n with
  | zero => simp
  | succ n ih =>
    obtain ⟨steps, _⟩ := ih fun k hk => onward k (by omega)
    obtain ⟨one, stage⟩ := steps_of_stepping (onward n (by omega))
    rw [afterCalls_succ, one, steps]
    exact ⟨by omega, fun _ => stage⟩

/-- A run with fewer steps was live, and it has kept the plan that it had. -/
theorem isLive_of_earlier {k n : ℕ} (earlier : (i.afterCalls k).steps < (i.afterCalls n).steps) :
    (i.afterCalls k).lifecycle.IsLive ∧
      ∀ p, (i.afterCalls k).plan = some p → (i.afterCalls n).plan = some p := by
  rcases Nat.le_total k n with before | after
  · obtain ⟨d, rfl⟩ := Nat.exists_eq_add_of_le before
    rw [afterCalls_add] at earlier ⊢
    refine ⟨?_, ((i.afterCalls k).plan_steps_afterCalls d).1⟩
    by_contra dead
    rw [afterCalls_of_not_live dead] at earlier
    omega
  · obtain ⟨d, rfl⟩ := Nat.exists_eq_add_of_le after
    rw [afterCalls_add] at earlier
    have more := ((i.afterCalls n).plan_steps_afterCalls d).2
    omega

/-- Calls after which a paced run goes on stay within its plan. -/
theorem calls_within [Counting α] {n : ℕ}
    (run : (i.afterCalls (n + 1)).IsRunOf c q) (paced : (i.afterCalls n).IsPaced)
    (onward : ∀ k < n, (i.afterCalls k).stepOnce.result = .stepping) :
    ((i.afterCalls (n + 1)).plan = none → n = 0) ∧
      ∀ p, (i.afterCalls (n + 1)).plan = some p → n + 1 ≤ p.maxSteps := by
  obtain ⟨steps, stage⟩ := steps_of_onward onward
  have keepsPlan := (i.afterCalls n).plan_steps_stepOnce.1
  rcases Nat.eq_zero_or_pos n with rfl | later
  · exact ⟨fun _ => rfl, fun p planned => (run.plan_mem planned).2.2.1⟩
  · -- A run that has gone on is planned, and its counter is below the budget.
    have stepping := stage later
    have positive := paced.stepping stepping
    obtain ⟨p, planned⟩ := paced.exists_plan positive
    have room := (paced.onward p planned (.inr stepping) positive).2.2
    have same : (i.afterCalls (n + 1)).plan = some p := keepsPlan p planned
    refine ⟨fun unplanned => ?_, fun p' planned' => ?_⟩
    · cases unplanned.symm.trans same
    · obtain rfl := Option.some.inj (same.symm.trans planned')
      omega

omit [DiagnosticsSink α σ] in
/-- The reason for an end follows from the conditions that are met. -/
theorem EndsFor.reason_iff {p : StepPlan α} {reason : TerminationReason}
    (met : i.EndsFor p false reason) :
    (reason = .massDepleted ↔ i.IsDepleted) ∧
    (reason = .timeHorizon ↔ ¬ i.IsDepleted ∧ i.HasArrived p) ∧
    (reason = .stepLimit ↔ ¬ i.IsDepleted ∧ ¬ i.HasArrived p) ∧
    (reason = .stepLimit → p.maxSteps ≤ i.steps) := by
  cases reason <;> simp_all [EndsFor]

/-! ## Main result -/

/-- **A run ends within its plan.** Take an accepted run after any number of calls and ask for all
steps that are left. The answer comes after a number of calls, all but the last of which go on: one
call when the run is never planned, and otherwise at most as many as the plan has steps. A plan has
at least one step, and its budget is the configured one or a 64-bit word, so the counter of steps is
bounded, and it is below the budget while the run goes on. The run is left live just when a bin has
refused a withdrawal.

When the run ends regularly, the reason is depletion exactly when the final mass is below the given
fraction of the initial mass, else the horizon exactly when the final time has reached it, else the
step budget, and then all its steps were made. None of the three conditions held after an earlier
step. -/
theorem run_ends_within_plan [Counting α] {sink : σ} {start : Integrator α σ}
    (accepted : Integrator.new c sink = .ok start) (m : ℕ) :
    let i := start.afterCalls m
    let last := i.run.after
    let least := c.numerics.massFloor * start.state.totalMass.kilograms
    (∃ n, (∀ k < n, (i.afterCalls k).stepOnce.result = .stepping) ∧ last = i.afterCalls (n + 1) ∧
      runResult? (i.afterCalls n).stepOnce = some i.run.result ∧
      (last.plan = none → n = 0) ∧ ∀ p, last.plan = some p → n + 1 ≤ p.maxSteps) ∧
    (∀ p, last.plan = some p → 1 ≤ p.maxSteps ∧ last.steps ≤ p.maxSteps ∧
      (∀ n, c.numerics.maxSteps = some n → p.maxSteps = n) ∧
      (c.numerics.maxSteps = none → p.maxSteps < 2 ^ 64)) ∧
    (i.lifecycle = .stepping → ∃ p, i.plan = some p ∧ i.steps < p.maxSteps) ∧
    (i.run.result = .refused ↔ last.lifecycle.IsLive) ∧
    (∀ s, i.run.result = .summary s → ∃ p, last.plan = some p ∧ s = last.summary s.reason ∧
      (s.reason = .massDepleted ↔ s.finalMass.kilograms < least) ∧
      (s.reason = .timeHorizon ↔
        ¬ s.finalMass.kilograms < least ∧ p.horizon.seconds ≤ s.finalTime.seconds) ∧
      (s.reason = .stepLimit ↔
        ¬ s.finalMass.kilograms < least ∧ ¬ p.horizon.seconds ≤ s.finalTime.seconds) ∧
      (s.reason = .stepLimit → s.steps = p.maxSteps)) ∧
    ∀ k, let j := start.afterCalls k
      0 < j.steps → j.steps < last.steps → ∃ p, last.plan = some p ∧
        ¬ j.state.totalMass.kilograms < least ∧ ¬ p.horizon.seconds ≤ j.state.time.seconds ∧
        j.steps < p.maxSteps := by
  intro i last least
  obtain ⟨q, initial, kept⟩ := isPaced_afterCalls accepted
  obtain ⟨n, onward, after, answer⟩ := i.loop_calls
  have reached : last = start.afterCalls (m + (n + 1)) := by
    rw [afterCalls_add]
    exact after
  have called : i.afterCalls (n + 1) = last := after.symm
  obtain ⟨run, paced⟩ : last.IsRunOf c q ∧ last.IsPaced := reached ▸ kept _
  have depleted (j : Integrator α σ) (run : j.IsRunOf c q) :
      j.IsDepleted ↔ j.state.totalMass.kilograms < least := by
    rw [IsDepleted, run.config, run.initial, initial]
  refine ⟨⟨n, onward, after, answer, ?_⟩, fun p planned => ?_, fun stepping => ?_, ?_,
    fun s summary => ?_, fun k positive earlier => ?_⟩
  · have before : (i.afterCalls n).IsPaced := by
      rw [← afterCalls_add]
      exact (kept _).2
    rw [← called] at run ⊢
    exact calls_within run before onward
  · obtain ⟨_, _, made, configured, derived⟩ := run.plan_mem planned
    exact ⟨made, paced.within p planned, configured, derived⟩
  · have paced := (kept m).2
    have positive := paced.stepping stepping
    obtain ⟨p, planned⟩ := paced.exists_plan positive
    exact ⟨p, planned, (paced.onward p planned (.inr stepping) positive).2.2⟩
  · rw [← called]
    exact refused_iff_isLive answer
  · rw [run_result] at summary
    rw [summary] at answer
    obtain ⟨terminated, same⟩ := terminated_of_summary answer
    have stage := lifecycle_of_terminated terminated
    rw [← afterCalls_succ, called] at same stage
    obtain ⟨p, planned, met⟩ := paced.ended s.reason stage
    obtain ⟨byMass, byTime, byBudget, spent⟩ := met.reason_iff
    rw [depleted last run] at byMass byTime byBudget
    have final : s.finalMass = last.state.totalMass ∧ s.finalTime = last.state.time ∧
        s.steps = last.steps := by
      rw [same]
      exact ⟨rfl, rfl, rfl⟩
    rw [final.1, final.2.1, final.2.2]
    exact ⟨p, planned, same, byMass, byTime, byBudget,
      fun limit => Nat.le_antisymm (paced.within p planned) (spent limit)⟩
  · rw [reached] at earlier
    obtain ⟨live, keepsPlan⟩ := isLive_of_earlier earlier
    obtain ⟨run, paced⟩ := kept k
    obtain ⟨p, planned⟩ := paced.exists_plan positive
    obtain ⟨massive, afloat, room⟩ := paced.onward p planned live positive
    refine ⟨p, ?_, (depleted _ run).not.mp massive, afloat, room⟩
    rw [reached]
    exact keepsPlan p planned

/-- The baseline run without a mass floor ends with its only step when it may make one step. -/
theorem run_ends_within_plan_single :
    ∃ start : Integrator ℝ (Obliging ℝ),
      Integrator.new (.enduring (some 1)) { answer := .ok () } = .ok start ∧
      ∃ s, start.run.result = .summary s ∧ s.reason = .stepLimit ∧ s.steps = 1 := by
  have positive : ∀ n, some 1 = some n → 0 < n := by simp
  obtain ⟨start, accepted, endures, unplanned, stage, zero, unstarted, sink⟩ :=
    exists_new_enduring positive ({ answer := .ok () } : Obliging ℝ)
  have content : start.sink.answer = .ok () := congrArg Obliging.answer sink
  obtain ⟨s, r, reason, gathered, passed, _, undepleted, ⟨_, ended, after⟩ | ⟨cause, failed, _⟩⟩ :=
    endures.ends_at_once (.inl stage) unplanned fun _ => rfl
  · obtain ⟨last, answered⟩ := loop_of_not_stepping (i := start) (by simp [ended])
    simp only [runResult?, ended, Option.some.injEq] at answered
    obtain ⟨_, _, _, _, summaries, _⟩ := run_ends_within_plan accepted 0
    obtain ⟨p, planned, _, _, _, byBudget, _⟩ := summaries _ answered.symm
    obtain ⟨horizon, time⟩ := endures.first_step gathered passed unstarted
    have plan : p = s.plan := by simpa [last, after] using planned.symm
    have config := endures.config
    refine ⟨start, accepted, _, answered.symm, byBudget.mpr ⟨?_, ?_⟩,
      by simp [summary, after, zero]⟩
    · simpa [summary, after, IsDepleted, config, RunConfig.enduring] using undepleted
    · norm_num [summary, after, plan, horizon, time]
  · have refused : start.sink.answer = .error cause := failed
    simp [content] at refused

end Integrator
end DebrisDisk
