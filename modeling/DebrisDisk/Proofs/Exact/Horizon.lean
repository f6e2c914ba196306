import Mathlib
import DebrisDisk.Proofs.Exact.Schedule
import DebrisDisk.Proofs.Termination

/-!
# The time grid of a run

In exact arithmetic the records of a run are the steps of its plan: the record with number `k`
starts at the `k`-th multiple of the step length, and only the last record can land on the horizon.
`Integrator.IsOnGrid` is the invariant; a live run stands at the start of its next step, and none of
its steps has landed.

A run that ends regularly and is not depleted has landed, unless its step budget was configured, or
is so great that it does not fit a 64-bit word.

## Main results

* `Integrator.IsOnGrid.stepOnce`: a call keeps a run on its grid.
* `Integrator.time_grid`: the times of the records and the number of steps.
-/

namespace DebrisDisk
open Scalar DiagnosticsSink

namespace Integrator
variable {σ : Type} {i : Integrator ℝ (Observed ℝ σ)} {c : RunConfig ℝ} {q : Preparation ℝ}

/-- Plan, records and clock agree. -/
structure IsOnGrid (i : Integrator ℝ (Observed ℝ σ)) : Prop where
  counted : i.sink.records.length = i.steps
  unplanned : i.plan = none → i.steps = 0
  unstarted : i.steps = 0 → i.state.time = 0
  record : ∀ p, i.plan = some p → ∀ k r, i.sink.records[k]? = some r →
    r.dt = p.length k ∧ r.time = p.stop k
  clock : ∀ p, i.plan = some p → ∀ k, i.steps = k + 1 → i.state.time.seconds = p.stop k
  /-- Only the last step can have landed. -/
  early : ∀ p, i.plan = some p → ∀ k, k + 1 < i.steps → p.lands k = false
  /-- No step of a live run has landed. -/
  onward : ∀ p, i.plan = some p → i.lifecycle.IsLive → ∀ k < i.steps, p.lands k = false

namespace IsOnGrid
variable {s : StepInputs ℝ} {r : Committed ℝ} {sink : Observed ℝ σ} {lifecycle : Lifecycle}

/-- Sink and stage do not matter, except for the records and for going on. -/
theorem withSink (grid : i.IsOnGrid) (records : sink.records = i.sink.records)
    (goesOn : lifecycle.IsLive → i.lifecycle.IsLive) :
    ({ i with sink, lifecycle } : Integrator ℝ (Observed ℝ σ)).IsOnGrid where
  counted := records ▸ grid.counted
  unplanned := grid.unplanned
  unstarted := grid.unstarted
  record := by
    simp only [records]
    exact grid.record
  clock := grid.clock
  early := grid.early
  onward p planned live := grid.onward p planned (goesOn live)

/-- A run that has committed a step follows the plan that it has. -/
theorem planned (grid : i.IsOnGrid) (inputs : s.IsOf i) (positive : 0 < i.steps) :
    i.plan = some s.plan := by
  cases planned : i.plan with
  | none => exact absurd (grid.unplanned planned) positive.ne'
  | some p => rw [plan_of_inputs inputs planned]

/-- A live run stands at the start of its next step. -/
theorem time_of_plan (grid : i.IsOnGrid) (live : i.lifecycle.IsLive) {p : StepPlan ℝ}
    (planned : i.plan = some p) : i.state.time = p.start i.steps := by
  cases steps : i.steps with
  | zero =>
    rw [grid.unstarted steps, StepPlan.start_zero]
  | succ k =>
    have onward := grid.onward p planned live k (by omega)
    have stopped := grid.clock p planned k steps
    rw [StepPlan.stop, if_neg (by simp [onward])] at stopped
    refine Quantity.ext (stopped.trans ?_)
    simp only [StepPlan.start]
    push_cast
    ring

/-- The step that a live run makes is the next step of its plan. -/
theorem next (grid : i.IsOnGrid) (live : i.lifecycle.IsLive) (inputs : s.IsOf i) :
    i.state.time = s.plan.start i.steps ∧ s.dt.seconds = s.plan.length i.steps ∧
      s.lands = s.plan.lands i.steps := by
  have time : i.state.time = s.plan.start i.steps := by
    rcases Nat.eq_zero_or_pos i.steps with zero | positive
    · rw [grid.unstarted zero, zero, StepPlan.start_zero]
    · exact grid.time_of_plan live (grid.planned inputs positive)
  refine ⟨time, ?_, ?_⟩
  · rw [StepPlan.length, ← time, ← inputs.next]
  · rw [StepPlan.lands, ← time, ← inputs.next]

/-- A run keeps to its grid when it gathers its inputs. -/
theorem started (grid : i.IsOnGrid) (inputs : s.IsOf i) : (i.started s).IsOnGrid where
  counted := grid.counted
  unplanned := by simp
  unstarted := grid.unstarted
  record p made k r held := by
    obtain rfl := Option.some.inj made
    have room := (List.getElem?_eq_some_iff.mp held).1
    have counted := grid.counted
    exact grid.record s.plan (grid.planned inputs (by simp at room; omega)) k r held
  clock p made k steps := by
    obtain rfl := Option.some.inj made
    exact grid.clock s.plan (grid.planned inputs (by simp at steps; omega)) k steps
  early p made k before := by
    obtain rfl := Option.some.inj made
    exact grid.early s.plan (grid.planned inputs (by simp at before; omega)) k before
  onward p made live k before := by
    obtain rfl := Option.some.inj made
    exact grid.onward s.plan (grid.planned inputs (by simp at before; omega)) live k before

/-- A committed step is the next step of the plan. -/
theorem record_of_advance (grid : i.IsOnGrid) (live : i.lifecycle.IsLive) (inputs : s.IsOf i)
    (passed : i.advance s = .ok r) : r.record.dt = s.plan.length i.steps ∧
      r.record.time = s.plan.stop i.steps ∧ r.state.time.seconds = s.plan.stop i.steps := by
  obtain ⟨time, dt, lands⟩ := grid.next live inputs
  obtain ⟨_, _, _, _, _, state, record⟩ := Evaluation.advance_eq_ok passed
  have stops : r.state.time.seconds = s.plan.stop i.steps := by
    simp only [state, Evaluation.stateAfter, lands, StepPlan.stop]
    split
    · rfl
    · rename_i onward
      simp only [Bool.not_eq_true] at onward
      simp only [Option.getD_none, Quantity.base_add, time, dt,
        StepPlan.length_of_not_lands onward]
  rw [record]
  exact ⟨dt, stops, stops⟩

/-- A run keeps to its grid when it commits a step. -/
theorem commit (grid : i.IsOnGrid) (live : i.lifecycle.IsLive) (inputs : s.IsOf i)
    (passed : i.advance s = .ok r) (records : sink.records = i.sink.records ++ [r.record])
    (goesOn : lifecycle.IsLive → s.lands = false) :
    ({ (i.started s).commit r with sink, lifecycle } : Integrator ℝ (Observed ℝ σ)).IsOnGrid := by
  obtain ⟨dt, time, clock⟩ := grid.record_of_advance live inputs passed
  have before := grid.started inputs
  refine { counted := by simp [records, grid.counted], unplanned := by simp
           unstarted := by simp, record := ?_, clock := ?_, early := ?_, onward := ?_ }
  · rintro p ⟨⟩ k record held
    simp only [records, List.getElem?_append] at held
    split at held
    · exact before.record s.plan rfl k record held
    · rename_i late
      obtain ⟨last, rfl⟩ : k - i.sink.records.length = 0 ∧ r.record = record := by
        simpa [List.getElem?_singleton] using held
      obtain rfl : k = i.steps := by
        have counted := grid.counted
        omega
      exact ⟨dt, time⟩
  · rintro p ⟨⟩ k steps
    obtain rfl : i.steps = k := by simpa using steps
    exact clock
  · rintro p ⟨⟩ k earlier
    exact before.onward s.plan rfl live k (by simpa using earlier)
  · rintro p ⟨⟩ goes k earlier
    rcases Nat.lt_succ_iff_lt_or_eq.mp earlier with earlier | rfl
    · exact before.onward s.plan rfl live k earlier
    · rw [steps_started, ← (grid.next live inputs).2.2]
      exact goesOn goes

end IsOnGrid

variable [DiagnosticsSink ℝ σ]

/-- A call keeps a run on its grid. -/
theorem IsOnGrid.stepOnce (grid : i.IsOnGrid) : i.stepOnce.after.IsOnGrid := by
  by_cases live : i.lifecycle.IsLive
  · have course := stepOnce_course live
    generalize i.stepOnce.after = after, i.stepOnce.result = answer at course
    cases course with
    | unprepared e gathered => exact grid.withSink (by simp) (by simp)
    | refused s gathered stuck => exact grid.started (inputs_eq_ok gathered)
    | violated s e gathered stuck =>
      exact (grid.started (inputs_eq_ok gathered)).withSink (by simp) (by simp)
    | unsent s r gathered passed cause sent =>
      exact grid.commit live (inputs_eq_ok gathered) passed (by simp) (by simp)
    | onward s r gathered passed sent ending =>
      have afloat := (ending?_eq_none_iff.mp ending).2.1
      exact grid.commit live (inputs_eq_ok gathered) passed (by simp)
        fun _ => Bool.eq_false_iff.mpr fun lands => afloat (.inl lands)
    | unfinished s r gathered passed sent reason ending cause finished =>
      exact grid.commit live (inputs_eq_ok gathered) passed (by simp) (by simp)
    | ended s r gathered passed sent reason ending finished =>
      exact grid.commit live (inputs_eq_ok gathered) passed (by simp) (by simp)
  · rw [(stepOnce_of_not_live live).1]
    exact grid

/-! ## Scheduled runs -/

/-- An exact run of a preparation that keeps to its plan and its grid. -/
structure IsScheduled (i : Integrator ℝ (Observed ℝ σ)) (c : RunConfig ℝ) (q : Preparation ℝ) :
    Prop where
  run : i.IsRunOf c q
  exact : i.IsExact
  paced : i.IsPaced
  grid : i.IsOnGrid

namespace IsScheduled

omit [DiagnosticsSink ℝ σ] in
/-- What happens behind the observer of a run does not matter. -/
theorem change (scheduled : i.IsScheduled c q) (f : σ → σ) :
    ({ i with sink := i.sink.change f } : Integrator ℝ (Observed ℝ σ)).IsScheduled c q where
  run := scheduled.run.withSink _ _
  exact := ⟨scheduled.exact.grid, scheduled.exact.nonneg, scheduled.exact.closed⟩
  paced := {
    unplanned := scheduled.paced.unplanned, within := scheduled.paced.within
    stepping := scheduled.paced.stepping, onward := scheduled.paced.onward
    ended := scheduled.paced.ended }
  grid := scheduled.grid.withSink rfl id

/-- One call keeps the schedule. -/
theorem stepOnce (scheduled : i.IsScheduled c q) : i.stepOnce.after.IsScheduled c q where
  run := scheduled.run.stepOnce
  exact := scheduled.exact.stepOnce scheduled.run
  paced := scheduled.paced.stepOnce scheduled.run
  grid := scheduled.grid.stepOnce

omit [DiagnosticsSink ℝ σ] in
/-- The plan of a scheduled run goes forward, and its step budget is derived from the horizon unless
one is configured. -/
theorem plan (scheduled : i.IsScheduled c q) {p : StepPlan ℝ} (planned : i.plan = some p) :
    p.IsForward ∧ (c.numerics.maxSteps = none →
      p.maxSteps = NumericsSettings.stepBudget p.horizon.seconds p.dt.seconds) := by
  obtain ⟨valid, horizon, _⟩ := RunConfig.prepare_eq_ok scheduled.run.prepared
  obtain ⟨timescales, proper, rfl⟩ := scheduled.run.plan p planned
  have positive := (NumericsSettings.horizon_eq_ok_iff.mp horizon).2.1
  refine ⟨NumericsSettings.isForward_plan valid positive proper, fun derived => ?_⟩
  simp [NumericsSettings.plan, derived]

omit [DiagnosticsSink ℝ σ] in
/-- The clock goes on by the length of each step, also of one that lands. -/
theorem time_of_advance (scheduled : i.IsScheduled c q) (live : i.lifecycle.IsLive)
    {s : StepInputs ℝ} (inputs : s.IsOf i) {r : Committed ℝ} (passed : i.advance s = .ok r) :
    r.state.time.seconds = i.state.time.seconds + s.dt.seconds := by
  obtain ⟨time, dt, _⟩ := scheduled.grid.next live inputs
  obtain ⟨_, _, clock⟩ := scheduled.grid.record_of_advance live inputs passed
  have onward : ∀ k < i.steps, s.plan.lands k = false :=
    (scheduled.grid.started inputs).onward s.plan rfl live
  obtain ⟨valid, horizon, _⟩ := RunConfig.prepare_eq_ok scheduled.run.prepared
  obtain ⟨timescales, proper, plan⟩ := scheduled.run.plan_of_inputs inputs
  have forward : s.plan.IsForward :=
    plan ▸ NumericsSettings.isForward_plan valid
      (NumericsSettings.horizon_eq_ok_iff.mp horizon).2.1 proper
  rw [clock, ← StepPlan.start_add_length forward onward, time, dt]

/-- No withdrawal is refused in exact arithmetic. -/
theorem ne_refused (scheduled : i.IsScheduled c q) : i.stepOnce.result ≠ .refused := by
  intro refused
  obtain ⟨_, s, gathered, unmoved⟩ := stepOnce_eq_refused_iff.mp refused
  obtain ⟨_, _, r, passed, _⟩ :=
    advance_exact scheduled.run scheduled.exact (inputs_eq_ok gathered)
  obtain ⟨_, _, _, moved, _⟩ := Evaluation.advance_eq_ok passed
  simp [unmoved] at moved

omit [DiagnosticsSink ℝ σ] in
/-- A run that ends regularly without a configured step budget, and is not depleted, has landed on
the horizon, as long as the derived step budget fits a 64-bit word. -/
theorem ends_at_horizon (scheduled : i.IsScheduled c q) {reason : TerminationReason}
    (ended : i.lifecycle = .terminating reason) (undepleted : reason ≠ .massDepleted)
    {p : StepPlan ℝ} (planned : i.plan = some p) (derived : c.numerics.maxSteps = none)
    (fits : 1.05 * p.horizon.seconds / p.dt.seconds ≤ 2 ^ 64 - 1) :
    reason = .timeHorizon ∧ (i.steps : ℤ) = ⌈p.horizon.seconds / p.dt.seconds - 1e-9⌉ := by
  obtain ⟨forward, budget⟩ := scheduled.plan planned
  obtain ⟨p', planned', met⟩ := scheduled.paced.ended reason ended
  obtain rfl := Option.some.inj (planned.symm.trans planned')
  have grid := scheduled.grid
  cases steps : i.steps with
  | zero =>
    -- The run cannot have ended before its first step.
    have horizon := forward.positive.trans_le forward.within
    have made := (scheduled.run.plan_mem planned).2.2.1
    have afloat : ¬ i.HasArrived p := by
      simpa [HasArrived, grid.unstarted steps] using horizon
    cases reason with
    | massDepleted => exact absurd rfl undepleted
    | timeHorizon => exact absurd met.2 (by simpa using afloat)
    | stepLimit => exact absurd met.2.2 (by omega)
  | succ k =>
    have clock := grid.clock p planned k steps
    have early : ∀ j < k, p.lands j = false := fun j hj => grid.early p planned j (by omega)
    cases landing : p.lands k with
    | true =>
      have arrived : i.HasArrived p := by
        rw [HasArrived, clock, (StepPlan.stop_eq_horizon_iff forward).mpr landing]
      refine ⟨?_, ?_⟩
      · cases reason with
        | massDepleted => exact absurd rfl undepleted
        | timeHorizon => rfl
        | stepLimit => exact absurd (.inr arrived) met.2.1
      · rw [StepPlan.ceil_of_lands forward early landing]
        push_cast
        rfl
    | false =>
      -- A step that does not land neither reaches the horizon nor spends the step budget.
      have afloat : ¬ i.HasArrived p := by
        rw [HasArrived, clock, not_le]
        exact StepPlan.stop_lt_horizon forward landing
      have room := StepPlan.lt_stepBudget forward landing fits
      rw [← budget derived, ← steps] at room
      cases reason with
      | massDepleted => exact absurd rfl undepleted
      | timeHorizon => exact absurd met.2 (by simpa using afloat)
      | stepLimit => exact absurd met.2.2 (by omega)

/-- A request for all steps that are left ends at the horizon, unless a step fails or the run is
depleted. -/
theorem loop (scheduled : i.IsScheduled c q) {p : StepPlan ℝ} (planned : i.loop.after.plan = some p)
    (derived : c.numerics.maxSteps = none)
    (fits : 1.05 * p.horizon.seconds / p.dt.seconds ≤ 2 ^ 64 - 1) :
    i.loop.after.lifecycle ≠ .terminating .stepLimit ∧
      ((∀ e, i.loop.result ≠ .error e) →
        (∀ s, i.loop.result = .summary s → s.reason ≠ .massDepleted) →
        ∃ s, i.loop.result = .summary s ∧ s.reason = .timeHorizon ∧
          (s.steps : ℤ) = ⌈p.horizon.seconds / p.dt.seconds - 1e-9⌉) := by
  obtain ⟨n, _, last, answer⟩ := i.loop_calls
  have kept (m : ℕ) : (i.afterCalls m).IsScheduled c q :=
    afterCalls_induction (P := fun j => j.IsScheduled c q) scheduled (fun _ kept => kept.stepOnce) m
  have ends : i.loop.after.IsScheduled c q := last ▸ kept (n + 1)
  refine ⟨fun limit => ?_, fun unfailing undepleted => ?_⟩
  · obtain ⟨horizon, _⟩ := ends.ends_at_horizon limit (by simp) planned derived fits
    cases horizon
  · cases given : i.loop.result with
    | summary s =>
      rw [given] at answer
      obtain ⟨terminated, same⟩ := terminated_of_summary answer
      have stage := lifecycle_of_terminated terminated
      rw [← afterCalls_succ, ← last] at same stage
      obtain ⟨horizon, counted⟩ :=
        ends.ends_at_horizon stage (undepleted s given) planned derived fits
      refine ⟨s, rfl, horizon, ?_⟩
      rw [same]
      exact counted
    | error e => exact absurd given (unfailing e)
    | refused =>
      rw [given] at answer
      exact absurd ((refused_iff answer).mp rfl) (kept n).ne_refused

end IsScheduled

/-- Every accepted run keeps its schedule. -/
theorem isScheduled_afterRequests {sink : σ} {start : Integrator ℝ σ}
    (accepted : Integrator.new c sink = .ok start) (requests : List (Request σ)) :
    ∃ q, (start.observed.afterRequests (requests.map Request.observed)).IsScheduled c q := by
  obtain ⟨q, run, state, books⟩ := isRunOf_new accepted
  obtain ⟨_, _, _, _, _, initial, _⟩ := RunConfig.prepare_eq_ok run.prepared
  have unplanned : start.observed.plan = none ∧ start.observed.steps = 0 ∧
      start.observed.lifecycle = .initializing := by
    obtain ⟨_, _, rfl⟩ := new_eq_ok accepted
    exact ⟨rfl, rfl, rfl⟩
  have begun : start.observed.IsScheduled c q := {
    run := run.observed
    exact := isExact_of_start run.observed state books
    paced := isPaced_of_initializing unplanned.1 unplanned.2.1 unplanned.2.2
    grid := {
      counted := unplanned.2.1.symm, unplanned := fun _ => unplanned.2.1
      unstarted := fun _ => by
        change start.state.time = 0
        rw [state, initial]
        rfl
      record := by simp [unplanned.1], clock := by simp [unplanned.1]
      early := by simp [unplanned.1], onward := by simp [unplanned.1] } }
  exact ⟨q, afterObserved_induction (P := fun j => j.IsScheduled c q) begun
    (fun _ kept => kept.stepOnce) fun _ f _ kept => kept.change f⟩

/-! ## Records -/

namespace IsOnGrid
variable {p : StepPlan ℝ} {k : ℕ} {r : StepRecord ℝ}

omit [DiagnosticsSink ℝ σ] in
/-- No step before the last one has landed. -/
theorem early_of_record (grid : i.IsOnGrid) (planned : i.plan = some p)
    (held : i.sink.records[k]? = some r) : ∀ j < k, p.lands j = false := by
  intro j before
  have room := (List.getElem?_eq_some_iff.mp held).1
  have counted := grid.counted
  exact grid.early p planned j (by omega)

omit [DiagnosticsSink ℝ σ] in
/-- The lengths of the records before a record add up to its start. -/
theorem sum_before (grid : i.IsOnGrid) (planned : i.plan = some p)
    (held : i.sink.records[k]? = some r) :
    ((i.sink.records.take k).map (·.dt)).sum = (p.start k).seconds := by
  have room := (List.getElem?_eq_some_iff.mp held).1
  have early := grid.early_of_record planned held
  have alike : (i.sink.records.take k).map (·.dt) = List.replicate k p.dt.seconds := by
    rw [List.eq_replicate_iff]
    refine ⟨by simp [room.le], fun dt member => ?_⟩
    obtain ⟨record, among, rfl⟩ := List.mem_map.mp member
    obtain ⟨j, before, rfl⟩ := List.mem_take_iff_getElem.mp among
    have j_lt : j < k := by omega
    rw [(grid.record p planned j _ (List.getElem?_eq_getElem (by omega))).1]
    exact StepPlan.length_of_not_lands (early j j_lt)
  rw [alike, List.sum_replicate, nsmul_eq_mul, StepPlan.start_seconds]

omit [DiagnosticsSink ℝ σ] in
/-- The lengths of the records up to a record add up to its time. -/
theorem sum_upTo (grid : i.IsOnGrid) (planned : i.plan = some p) (forward : p.IsForward)
    (held : i.sink.records[k]? = some r) :
    ((i.sink.records.take (k + 1)).map (·.dt)).sum = r.time := by
  obtain ⟨dt, time⟩ := grid.record p planned k r held
  rw [List.take_add_one, held, List.map_append, List.sum_append, grid.sum_before planned held, time,
    ← StepPlan.start_add_length forward (grid.early_of_record planned held), ← dt]
  simp

omit [DiagnosticsSink ℝ σ] in
/-- The times of the records ascend. -/
theorem times_ascend (grid : i.IsOnGrid) (planned : i.plan = some p) (forward : p.IsForward) :
    (i.sink.records.map (·.time)).Pairwise (· < ·) := by
  rw [List.pairwise_map, List.pairwise_iff_getElem]
  intro j k hj hk before
  have held := List.getElem?_eq_getElem hk
  rw [(grid.record p planned j _ (List.getElem?_eq_getElem hj)).2,
    (grid.record p planned k _ held).2]
  exact StepPlan.stop_lt_stop forward (grid.early_of_record planned held) before

end IsOnGrid

/-! ## Main result -/

/-- **The time grid.** Take any sequence of requests to an accepted run, with an observer in front
of its sink, which changes nothing. There are no records before the run is planned, and a plan stays
whatever is asked for. The record with number `k` starts at the `k`-th multiple of the step length,
which is positive, because the lengths of the records before it add up to that, and with its own
length they add up to its time. The times ascend and do not go beyond the horizon. A record that
lands on the horizon has its time, and is longer than the step length by a billionth at most; every
other record has the step length and stays short of the horizon.

Ask then for all steps that are left, without a configured step budget and with a horizon whose step
budget fits a 64-bit word. The step budget does not end the run. If no step fails and the run is not
depleted, it ends at the horizon, and the number of its steps is the ratio of horizon and step
length, less a billionth, rounded up. -/
theorem time_grid {sink : σ} {start : Integrator ℝ σ}
    (accepted : Integrator.new c sink = .ok start) (requests : List (Request σ)) :
    let i := start.observed.afterRequests (requests.map Request.observed)
    let records := i.sink.records
    let rest := (start.afterRequests requests).run
    i.mapSink Observed.sink = start.afterRequests requests ∧
    (i.plan = none → records = []) ∧
    (∀ p, i.plan = some p →
      (∀ more : List (Request σ),
        (i.afterRequests (more.map Request.observed)).plan = some p) ∧
      0 < p.dt.seconds ∧
      (∀ k r, records[k]? = some r →
        ((records.take k).map (·.dt)).sum = k * p.dt.seconds ∧
        ((records.take (k + 1)).map (·.dt)).sum = r.time ∧
        if p.lands k then
          r.time = p.horizon.seconds ∧ r.dt ≤ p.dt.seconds * (1 + 1e-9)
        else r.time < p.horizon.seconds ∧ r.dt = p.dt.seconds) ∧
      (records.map (·.time)).Pairwise (· < ·)) ∧
    ∀ p, rest.after.plan = some p → c.numerics.maxSteps = none →
      1.05 * p.horizon.seconds / p.dt.seconds ≤ 2 ^ 64 - 1 →
      rest.after.lifecycle ≠ .terminating .stepLimit ∧
      ((∀ e, rest.result ≠ .error e) →
        (∀ s, rest.result = .summary s → s.reason ≠ .massDepleted) →
        ∃ s, rest.result = .summary s ∧ s.reason = .timeHorizon ∧
          (s.steps : ℤ) = ⌈p.horizon.seconds / p.dt.seconds - 1e-9⌉) := by
  intro i records rest
  obtain ⟨q, scheduled⟩ := isScheduled_afterRequests accepted requests
  have grid := scheduled.grid
  refine ⟨start.observed.afterRequests_observed requests, fun unplanned => ?_, fun p planned => ?_,
    fun p planned derived fits => ?_⟩
  · exact List.eq_nil_of_length_eq_zero (grid.counted.trans (grid.unplanned unplanned))
  · obtain ⟨forward, _⟩ := scheduled.plan planned
    refine ⟨fun more => ?_, forward.positive, fun k r held => ?_,
      grid.times_ascend planned forward⟩
    · exact afterRequests_induction (P := fun j => j.plan = some p) planned
        (fun j kept => j.plan_steps_stepOnce.1 p kept) fun _ _ _ kept => kept
    · obtain ⟨dt, time⟩ := grid.record p planned k r held
      have early := grid.early_of_record planned held
      refine ⟨grid.sum_before planned held, grid.sum_upTo planned forward held, ?_⟩
      rw [dt, time]
      cases landing : p.lands k with
      | true =>
        have short := StepPlan.lands_iff.mp landing
        rw [if_pos rfl, StepPlan.length_of_lands forward early landing]
        exact ⟨(StepPlan.stop_eq_horizon_iff forward).mpr landing, by simpa using short⟩
      | false =>
        rw [if_neg (by simp)]
        exact ⟨StepPlan.stop_lt_horizon forward landing, StepPlan.length_of_not_lands landing⟩
  · have told : (start.afterRequests requests).loop = i.loop.mapSink Observed.sink := by
      rw [← loop_mapSink Observed.answersAlike, start.observed.afterRequests_observed requests]
      rfl
    have planned : i.loop.after.plan = some p := by
      simpa [rest, told, Progress.mapSink, mapSink] using planned
    have stage : rest.after.lifecycle = i.loop.after.lifecycle := by
      simp [rest, told, Progress.mapSink, mapSink]
    have result : rest.result = i.loop.result := by
      simp [rest, told, Progress.mapSink]
    rw [stage, result]
    exact scheduled.loop planned derived fits

/-- The baseline run without a mass floor ends at its horizon, after 1052 steps. -/
theorem time_grid_enduring :
    ∃ start : Integrator ℝ (Obliging ℝ),
      Integrator.new (.enduring none) { answer := .ok () } = .ok start ∧
      ∃ s, start.run.result = .summary s ∧ s.reason = .timeHorizon ∧ s.steps = 1052 := by
  have positive : ∀ n, none = some n → 0 < n := by simp
  obtain ⟨start, accepted, endures, _, stage, _, _, sink⟩ :=
    exists_new_enduring positive ({ answer := .ok () } : Obliging ℝ)
  obtain ⟨final, p, answer, undepleted, planned, dt, horizon⟩ :=
    endures.run_summary (.inl stage) (congrArg Obliging.answer sink)
  obtain ⟨_, _, _, ends⟩ := time_grid accepted []
  obtain ⟨_, arrives⟩ := ends p planned rfl (by norm_num [dt, horizon])
  obtain ⟨s, same, reason, counted⟩ := arrives (fun e failed => by cases answer.symm.trans failed)
    fun s given => by
      obtain rfl := RunResult.summary.inj (answer.symm.trans given)
      exact undepleted
  have ratio : ⌈p.horizon.seconds / p.dt.seconds - 1e-9⌉ = 1052 := by
    rw [dt, horizon, Int.ceil_eq_iff]
    norm_num
  refine ⟨start, accepted, s, same, reason, ?_⟩
  rw [ratio] at counted
  exact_mod_cast counted

end Integrator
end DebrisDisk
