import DebrisDisk.Proofs.Driving
import DebrisDisk.Proofs.Exact.Closure

/-!
# Runs that are never depleted

A run without a mass floor is not depleted, because in exact arithmetic no bin ever holds a negative
mass. When its inputs can be gathered in every state as well, each of its steps passes, and it ends
at the horizon or with its step budget unless the sink stops it. The baseline run without a mass
floor endures in this sense. It is the run that the statements about the ends of a run are tried on,
with sinks that take every record.

## Main results

* `Integrator.exists_new_of_endures`: a run that endures is accepted with any sink.
* `Integrator.IsEnduring.passes`: each of its steps passes and does not deplete it.
* `Integrator.IsEnduring.run_summary`: a request for the whole run is answered with a summary.
* `Integrator.exists_new_single`: with a budget of one step, the first call ends the run.
-/

namespace DebrisDisk
open Scalar DiagnosticsSink

/-! ## The configuration -/

/-- The baseline run without a mass floor, within a step budget if one is given. -/
noncomputable def RunConfig.enduring (budget : Option ℕ) : RunConfig ℝ :=
  { RunConfig.default with
    numerics := { NumericsSettings.default with massFloor := 0, maxSteps := budget } }

namespace RunConfig
variable {budget : Option ℕ}

theorem isValid_enduring (positive : ∀ n, budget = some n → 0 < n) :
    (enduring budget).IsValid :=
  { isValid_default with
    maxSteps := positive
    massFloor := by norm_num [enduring] }

/-- The mass floor and the step budget are not evaluated. -/
theorem evaluate_enduring (budget : Option ℕ) (state : DiskState ℝ) :
    ∃ e, (enduring budget).evaluate
      (.ladder [] (RunConfig.default : RunConfig ℝ).sublimation.baseline) state = .ok e :=
  evaluate_default state

/-- The run is planned in steps of 60000 seconds over two years. -/
theorem plan_enduring {q : Preparation ℝ} (prepared : (enduring budget).prepare = .ok q)
    (timescales : TimescaleSet ℝ) :
    ((enduring budget).numerics.plan q.horizon timescales).dt.seconds = 60000 ∧
      ((enduring budget).numerics.plan q.horizon timescales).horizon.seconds = 63115200 := by
  have years : some (Time.ofYears NumericsSettings.defaultYears) = some q.horizon :=
    (NumericsSettings.horizon_eq_ok_iff.mp (prepare_eq_ok prepared).2.1).1
  have horizon : q.horizon.seconds = 63115200 := by
    rw [← Option.some.inj years]
    norm_num [Time.ofYears, NumericsSettings.defaultYears]
  refine ⟨?_, horizon⟩
  norm_num [NumericsSettings.plan, NumericsSettings.stepLength, enduring, NumericsSettings.default,
    StepSize.default, horizon]

end RunConfig

/-- Nothing ends a run of the configuration but its plan and its sink: it has no mass floor, and
every state can be evaluated. -/
structure RunConfig.Endures (c : RunConfig ℝ) : Prop where
  floorless : c.numerics.massFloor = 0
  evaluates : ∀ p, c.prepare = .ok p → ∀ state, ∃ e, c.evaluate p.selector state = .ok e

theorem RunConfig.endures_enduring (budget : Option ℕ) : (enduring budget).Endures where
  floorless := rfl
  evaluates p prepared state := by
    have laws := (prepare_eq_ok prepared).2.2.1
    rw [← Except.ok.inj (selector_default.symm.trans laws)]
    exact evaluate_enduring budget state

/-! ## The run -/

namespace Integrator
variable {σ : Type} {c : RunConfig ℝ} {budget : Option ℕ} {i : Integrator ℝ σ}

/-- A run of a configuration that lets it endure. -/
structure IsEnduring (c : RunConfig ℝ) (i : Integrator ℝ σ) : Prop where
  endures : c.Endures
  run : ∃ p, i.IsRunOf c p
  exact : i.IsExact

/-- A valid configuration with usable vapor pressure laws that lets its runs endure is accepted with
any sink. -/
theorem exists_new_of_endures [DiagnosticsSink ℝ σ] (valid : c.IsValid)
    {selector : PressureSelector ℝ} (laws : c.sublimation.selector = .ok selector)
    (endures : c.Endures) (sink : σ) :
    ∃ start : Integrator ℝ σ, Integrator.new c sink = .ok start ∧
      start.IsEnduring c ∧ start.plan = none ∧ start.lifecycle = .initializing ∧
      start.steps = 0 ∧ start.state.time = 0 ∧ start.sink = sink := by
  obtain ⟨p, prepared, _, _⟩ := RunConfig.prepare_of_isValid valid laws
  have accepted := new_of_prepare prepared sink
  obtain ⟨q, run, state, books⟩ := isRunOf_new accepted
  obtain rfl := Except.ok.inj (prepared.symm.trans run.prepared)
  have time : p.state.time = 0 := by
    obtain ⟨_, _, _, _, _, initial, _⟩ := RunConfig.prepare_eq_ok prepared
    rw [initial]
    rfl
  exact ⟨_, accepted, ⟨endures, ⟨p, run⟩, isExact_of_start run state books⟩, rfl, rfl, rfl, time,
    rfl⟩

/-- The run is accepted with any sink. -/
theorem exists_new_enduring [DiagnosticsSink ℝ σ] (positive : ∀ n, budget = some n → 0 < n)
    (sink : σ) :
    ∃ start : Integrator ℝ σ, Integrator.new (.enduring budget) sink = .ok start ∧
      start.IsEnduring (.enduring budget) ∧ start.plan = none ∧
      start.lifecycle = .initializing ∧ start.steps = 0 ∧ start.state.time = 0 ∧
      start.sink = sink :=
  exists_new_of_endures (RunConfig.isValid_enduring positive) RunConfig.selector_default
    (RunConfig.endures_enduring budget) sink

namespace IsEnduring

theorem config (endures : i.IsEnduring c) : i.config = c := by
  obtain ⟨p, run⟩ := endures.run
  exact run.config

theorem plan (endures : i.IsEnduring (.enduring budget)) {p : StepPlan ℝ}
    (planned : i.plan = some p) : p.dt.seconds = 60000 ∧ p.horizon.seconds = 63115200 := by
  obtain ⟨q, run⟩ := endures.run
  obtain ⟨timescales, _, rfl⟩ := run.plan p planned
  exact RunConfig.plan_enduring run.prepared timescales

/-- The first step takes 60000 seconds and does not land. -/
theorem first_step (endures : i.IsEnduring (.enduring budget)) {s : StepInputs ℝ} {r : Committed ℝ}
    (gathered : i.inputs = .ok s) (passed : i.advance s = .ok r) (unstarted : i.state.time = 0) :
    s.plan.horizon.seconds = 63115200 ∧ r.state.time.seconds = 60000 := by
  obtain ⟨q, run⟩ := endures.run
  have inputs := inputs_eq_ok gathered
  obtain ⟨timescales, _, plan⟩ := run.plan_of_inputs inputs
  obtain ⟨dt, horizon⟩ := RunConfig.plan_enduring run.prepared timescales
  rw [← plan] at dt horizon
  have next := inputs.next
  rw [StepPlan.next, unstarted, if_neg (by norm_num [dt, horizon]), Prod.mk.injEq] at next
  obtain ⟨_, _, _, _, _, state, _⟩ := Evaluation.advance_eq_ok passed
  refine ⟨horizon, ?_⟩
  rw [state]
  simp [Evaluation.stateAfter, next.1, next.2, unstarted, dt]

/-- Each step passes, keeps the run as it is and leaves it undepleted. -/
theorem passes (endures : i.IsEnduring c) :
    ∃ s r, i.inputs = .ok s ∧ i.advance s = .ok r ∧ ((i.started s).commit r).IsEnduring c ∧
      ¬ ((i.started s).commit r).IsDepleted := by
  obtain ⟨p, run⟩ := endures.run
  obtain ⟨e, evaluated⟩ := endures.endures.evaluates p run.prepared i.state
  have gathered : ∃ s, i.inputs = .ok s := by
    simp only [inputs, run.config, run.selector, evaluated]
    exact ⟨_, rfl⟩
  obtain ⟨s, gathered⟩ := gathered
  obtain ⟨_, _, r, passed, _⟩ := advance_exact run endures.exact (inputs_eq_ok gathered)
  have exact := endures.exact.commit run (inputs_eq_ok gathered) passed
  refine ⟨s, r, gathered, passed,
    ⟨endures.endures, ⟨p, run.commit (inputs_eq_ok gathered) passed⟩, exact⟩, ?_⟩
  have nonneg : 0 ≤ ((i.started s).commit r).state.totalMass.kilograms := by
    simpa [DiskState.totalMass, SizeBins.totalMass] using List.sum_nonneg exact.nonneg
  simpa [IsDepleted, run.config, endures.endures.floorless] using nonneg

/-- The sink and the stage of a run do not matter. -/
theorem withSink (endures : i.IsEnduring c) (sink : σ) (lifecycle : Lifecycle) :
    ({ i with sink, lifecycle } : Integrator ℝ σ).IsEnduring c := by
  obtain ⟨p, run⟩ := endures.run
  exact ⟨endures.endures, ⟨p, run.withSink sink lifecycle⟩,
    ⟨endures.exact.grid, endures.exact.nonneg, endures.exact.closed⟩⟩

/-- An observer in front of the sink does not matter. -/
theorem observed (endures : i.IsEnduring c) : i.observed.IsEnduring c := by
  obtain ⟨p, run⟩ := endures.run
  exact ⟨endures.endures, ⟨p, run.observed⟩,
    ⟨endures.exact.grid, endures.exact.nonneg, endures.exact.closed⟩⟩

/-- A live run commits a step when one is asked for. -/
theorem exists_step [DiagnosticsSink ℝ σ] (endures : i.IsEnduring c) (live : i.lifecycle.IsLive) :
    ∃ r, (i.session [.step]).trace = [r] := by
  obtain ⟨s, r, gathered, passed, _⟩ := endures.passes
  exact ⟨r, by rw [trace_step, committed?_eq_some_iff.mpr ⟨live, s, gathered, passed⟩]; rfl⟩

end IsEnduring

/-- A call on a live run commits a step when the sink takes its record. The run goes on, or it ends,
unless the sink cannot be finished. -/
theorem IsEnduring.committed [DiagnosticsSink ℝ σ] (endures : i.IsEnduring c)
    (live : i.lifecycle.IsLive) (takes : ∀ r, (emit i.sink r).2 = .ok ()) :
    ∃ s r, i.inputs = .ok s ∧ i.advance s = .ok r ∧ i.stepOnce.after.IsEnduring c ∧
      ¬ ((i.started s).commit r).IsDepleted ∧
      let made := (i.started s).commit r
      let sent := (emit i.sink r.record).1
      ((made.ending? s.plan s.lands = none ∧ i.stepOnce.result = .stepping ∧
          i.stepOnce.after = { made with sink := sent, lifecycle := .stepping }) ∨
        ∃ reason, made.ending? s.plan s.lands = some reason ∧
          (((finish sent).2 = .ok () ∧ i.stepOnce.result = .terminated reason ∧
              i.stepOnce.after =
                { made with sink := (finish sent).1, lifecycle := .terminating reason }) ∨
            ∃ cause, (finish sent).2 = .error cause ∧
              i.stepOnce.result = .error (.step i.steps (.sink cause)) ∧ i.stepOnce.after =
                { made with
                  sink := (finish (finish sent).1).1, lifecycle := .failed i.steps })) := by
  obtain ⟨s, r, gathered, passed, kept, undepleted⟩ := endures.passes
  refine ⟨s, r, gathered, passed, ?_⟩
  have course := stepOnce_course live
  generalize i.stepOnce.after = after, i.stepOnce.result = answer at course
  cases course with
  | unprepared e failed => simp [gathered] at failed
  | refused s' gathered' stuck =>
    obtain rfl := Except.ok.inj (gathered.symm.trans gathered')
    simp [passed] at stuck
  | violated s' e gathered' stuck =>
    obtain rfl := Except.ok.inj (gathered.symm.trans gathered')
    simp [passed] at stuck
  | unsent s' r' _ _ cause sent => simp [takes] at sent
  | onward s' r' gathered' passed' sent ending =>
    obtain rfl := Except.ok.inj (gathered.symm.trans gathered')
    obtain rfl := Except.ok.inj (passed.symm.trans passed')
    exact ⟨kept.withSink _ _, undepleted, .inl ⟨ending, rfl, rfl⟩⟩
  | unfinished s' r' gathered' passed' sent reason ending cause finished =>
    obtain rfl := Except.ok.inj (gathered.symm.trans gathered')
    obtain rfl := Except.ok.inj (passed.symm.trans passed')
    exact ⟨kept.withSink _ _, undepleted,
      .inr ⟨reason, ending, .inr ⟨cause, finished, rfl, rfl⟩⟩⟩
  | ended s' r' gathered' passed' sent reason ending finished =>
    obtain rfl := Except.ok.inj (gathered.symm.trans gathered')
    obtain rfl := Except.ok.inj (passed.symm.trans passed')
    exact ⟨kept.withSink _ _, undepleted, .inr ⟨reason, ending, .inl ⟨finished, rfl, rfl⟩⟩⟩

/-- A budget of one step is spent by the first call. -/
theorem IsEnduring.ends_at_once [DiagnosticsSink ℝ σ]
    (endures : i.IsEnduring (.enduring (some 1))) (live : i.lifecycle.IsLive)
    (unplanned : i.plan = none)
    (takes : ∀ r, (emit i.sink r).2 = .ok ()) :
    ∃ s r reason, i.inputs = .ok s ∧ i.advance s = .ok r ∧
      let made := (i.started s).commit r
      let sent := (emit i.sink r.record).1
      made.ending? s.plan s.lands = some reason ∧ ¬ made.IsDepleted ∧
      (((finish sent).2 = .ok () ∧ i.stepOnce.result = .terminated reason ∧
          i.stepOnce.after =
            { made with sink := (finish sent).1, lifecycle := .terminating reason }) ∨
        ∃ cause, (finish sent).2 = .error cause ∧
          i.stepOnce.result = .error (.step i.steps (.sink cause)) ∧ i.stepOnce.after =
            { made with sink := (finish (finish sent).1).1, lifecycle := .failed i.steps }) := by
  obtain ⟨s, r, gathered, passed, _, undepleted, ⟨goesOn, _⟩ | ⟨reason, ending, outcome⟩⟩ :=
    endures.committed live takes
  · have budget : s.plan.maxSteps = 1 := by
      rw [(inputs_eq_ok gathered).plan]
      simp [planned, unplanned, endures.config, RunConfig.enduring, NumericsSettings.plan]
    have room := (ending?_eq_none_iff.mp goesOn).2.2
    simp [budget] at room
  · exact ⟨s, r, reason, gathered, passed, ending, undepleted, outcome⟩

end Integrator

/-! ## With a sink that takes every record -/

/-- A sink that takes every record and always gives the same answer when it is finished. -/
structure Obliging (α : Type) where
  answer : Except SinkError Unit

instance {α : Type} : DiagnosticsSink α (Obliging α) where
  emit s _ := (s, .ok ())
  finish s := (s, s.answer)

/-- A request for the whole run is answered with a summary, which does not give depletion as the
reason. -/
theorem Integrator.IsEnduring.run_summary {budget : Option ℕ} {i : Integrator ℝ (Obliging ℝ)}
    (endures : i.IsEnduring (.enduring budget)) (live : i.lifecycle.IsLive)
    (content : i.sink.answer = .ok ()) :
    ∃ final p, i.run.result = .summary final ∧ final.reason ≠ .massDepleted ∧
      i.run.after.plan = some p ∧ p.dt.seconds = 60000 ∧ p.horizon.seconds = 63115200 := by
  obtain ⟨n, onward, last, result⟩ := i.loop_calls
  have reached (k : ℕ) (before : k ≤ n) : (i.afterCalls k).IsEnduring (.enduring budget) ∧
      (i.afterCalls k).lifecycle.IsLive ∧ (i.afterCalls k).sink.answer = .ok () := by
    induction k with
    | zero => exact ⟨endures, live, content⟩
    | succ k ih =>
      obtain ⟨endures, live, content⟩ := ih (by omega)
      have goes := onward k (by omega)
      obtain ⟨s, r, _, _, kept, _,
          ⟨_, _, after⟩ | ⟨reason, _, ⟨_, ended, _⟩ | ⟨cause, failed, _⟩⟩⟩ :=
        endures.committed live fun _ => rfl
      · rw [afterCalls_succ]
        exact ⟨kept, by simp [after], by rw [after]; exact content⟩
      · simp [ended] at goes
      · have answer : (i.afterCalls k).sink.answer = .error cause := failed
        simp [content] at answer
  obtain ⟨endures, live, content⟩ := reached n le_rfl
  obtain ⟨s, r, _, _, kept, undepleted,
      ⟨_, goes, _⟩ | ⟨reason, ending, ⟨_, ended, after⟩ | ⟨cause, failed, _⟩⟩⟩ :=
    endures.committed live fun _ => rfl
  · simp [runResult?, goes] at result
  · have planned : i.run.after.plan = some s.plan := by simp [last, after]
    rw [run_after, last, afterCalls_succ] at planned
    simp only [runResult?, ended, Option.some.injEq] at result
    refine ⟨_, s.plan, result.symm, ?_, by simp [last, after], kept.plan planned⟩
    rintro rfl
    exact undepleted (ending?_eq_some_iff.mp ending)
  · have answer : (i.afterCalls n).sink.answer = .error cause := failed
    simp [content] at answer

/-- With a budget of one step, the run is accepted, and its first call ends it with one record. -/
theorem Integrator.exists_new_single :
    ∃ (start : Integrator ℝ (Obliging ℝ)) (r : StepRecord ℝ) (reason : TerminationReason),
      Integrator.new (.enduring (some 1)) { answer := .ok () } = .ok start ∧
      let i := start.observed.stepOnce.after
      i.sink.records = [r] ∧ r.step = 0 ∧ i.steps = 1 ∧ i.lifecycle = .terminating reason := by
  have positive : ∀ n, some 1 = some n → 0 < n := by simp
  obtain ⟨start, accepted, endures, unplanned, stage, unstarted, _, sink⟩ :=
    exists_new_enduring positive ({ answer := .ok () } : Obliging ℝ)
  have content : start.sink.answer = .ok () := congrArg Obliging.answer sink
  have fresh : start.observed.sink.records = [] := rfl
  obtain ⟨s, r, reason, _, passed, _, _, ⟨_, _, after⟩ | ⟨cause, failed, _⟩⟩ :=
    endures.observed.ends_at_once (.inl stage) unplanned fun _ => rfl
  · have step := (describes_of_advance passed start.observed.sink .stepping).step
    refine ⟨start, r.record, reason, accepted, ?_⟩
    rw [after]
    refine ⟨by simp [fresh], ?_, by simp [observed, mapSink, unstarted], rfl⟩
    simpa [observed, mapSink, unstarted] using step
  · have refused : start.sink.answer = .error cause := failed
    simp [content] at refused

end DebrisDisk
