import DebrisDisk.Proofs.Exact.Enduring

/-!
# Runs of unbound grains

A disk on which nothing acts but radiation: phase changes, sublimation, collisions and shielding of
the baseline run are switched off, the grains are unbound at a given force ratio, blow-out takes all
of them, and it takes the exact fraction however short a step is. Statements about blow-out alone
are tried on its runs. They endure, and they make two steps of a given length.

## Main results

* `Integrator.exists_new_unbound`: the run is accepted with any sink, and endures.
* `Integrator.exists_steps_unbound`: it makes two steps one after the other.
-/

namespace DebrisDisk
open Scalar DiagnosticsSink

namespace RunConfig
variable {mode : GateMode} {seconds : ℝ}

/-- Unbound grains, on which only blow-out acts, for two steps of the given length. The competing
process does not act. -/
noncomputable def unbound (mode : GateMode) (seconds : ℝ) : RunConfig ℝ :=
  { RunConfig.default with
    radiation := { RadiationSettings.default with override := some 1 }
    phase := { PhaseSettings.default with enabled := false }
    sublimation := { SublimationSettings.default with enabled := false }
    collisions := { CollisionSettings.default with enabled := false }
    shielding := { ShieldingSettings.default with enabled := false }
    blowout := { (BlowoutSettings.default : BlowoutSettings ℝ) with
      gateMode := mode, layer := .full
      fastStep := { FastStepSettings.default with threshold := 0 } }
    numerics := { NumericsSettings.default with
      step := .fixed seconds, maxSteps := some 2, massFloor := 0 } }

theorem isValid_unbound (positive : 0 < seconds) : (unbound mode seconds).IsValid :=
  { isValid_default with
    override := by simp [unbound]
    fastThreshold := by simp [unbound]
    fixedStep := by simp [unbound, positive]
    maxSteps := by simp [unbound]
    massFloor := by norm_num [unbound] }

theorem selector_unbound : (unbound mode seconds).sublimation.selector =
    .ok (.ladder [] (RunConfig.default : RunConfig ℝ).sublimation.baseline) :=
  selector_default

theorem endures_unbound : (unbound mode seconds).Endures where
  floorless := rfl
  evaluates p prepared state := by
    rw [← Except.ok.inj (selector_unbound.symm.trans (prepare_eq_ok prepared).2.2.1)]
    exact exists_evaluate rfl rfl _ state

end RunConfig

namespace Integrator
variable {σ : Type} [DiagnosticsSink ℝ σ] {mode : GateMode} {seconds : ℝ}

/-- The run is accepted with any sink, and endures. -/
theorem exists_new_unbound (mode : GateMode) (positive : 0 < seconds) (sink : σ) :
    ∃ start : Integrator ℝ σ, Integrator.new (.unbound mode seconds) sink = .ok start ∧
      start.IsEnduring (.unbound mode seconds) ∧ start.plan = none ∧
      start.lifecycle = .initializing ∧ start.steps = 0 ∧ start.state.time = 0 ∧
      start.sink = sink :=
  exists_new_of_endures (RunConfig.isValid_unbound positive) RunConfig.selector_unbound
    RunConfig.endures_unbound sink

omit [DiagnosticsSink ℝ σ] in
/-- A step has the given length and does not land when two of its length are left. -/
theorem IsEnduring.step_of_numerics {c : RunConfig ℝ} {i : Integrator ℝ σ}
    (endures : i.IsEnduring c) (numerics : c.numerics = (RunConfig.unbound mode seconds).numerics)
    (positive : 0 < seconds) (short : i.state.time.seconds + 2 * seconds ≤ 63115200)
    (started : 0 ≤ i.state.time.seconds) {s : StepInputs ℝ} {r : Committed ℝ}
    (gathered : i.inputs = .ok s) (passed : i.advance s = .ok r) :
    s.lands = false ∧ s.plan.horizon.seconds = 63115200 ∧ s.plan.maxSteps = 2 ∧
      r.state.time.seconds = i.state.time.seconds + seconds := by
  obtain ⟨q, run⟩ := endures.run
  have inputs := inputs_eq_ok gathered
  obtain ⟨timescales, _, plan⟩ := run.plan_of_inputs inputs
  have horizonOf := (RunConfig.prepare_eq_ok run.prepared).2.1
  rw [numerics] at plan horizonOf
  have years : some (Time.ofYears NumericsSettings.defaultYears) = some q.horizon :=
    (NumericsSettings.horizon_eq_ok_iff.mp horizonOf).1
  have horizon : s.plan.horizon.seconds = 63115200 := by
    rw [plan, NumericsSettings.plan, ← Option.some.inj years]
    norm_num [Time.ofYears, NumericsSettings.defaultYears]
  have dt : s.plan.dt.seconds = seconds := by
    have within : seconds ≤ q.horizon.seconds := by
      rw [plan, NumericsSettings.plan] at horizon
      rw [horizon]
      linarith
    rw [plan]
    exact fmin_real.trans (min_eq_left within)
  have next := inputs.next
  have afloat : ¬ s.plan.horizon.seconds - i.state.time.seconds ≤
      s.plan.dt.seconds * (1 + 1e-9) := by
    rw [horizon, dt, not_le]
    norm_num
    linarith
  rw [StepPlan.next, if_neg afloat, Prod.mk.injEq] at next
  obtain ⟨_, _, _, _, _, state, _⟩ := Evaluation.advance_eq_ok passed
  refine ⟨next.2, horizon, by rw [plan]; rfl, ?_⟩
  rw [state]
  simp [Evaluation.stateAfter, next.1, next.2, dt]

/-- The first of two steps of the given length is made, and the run goes on. -/
theorem IsEnduring.first_of_numerics {c : RunConfig ℝ} {i : Integrator ℝ σ}
    (endures : i.IsEnduring c) (numerics : c.numerics = (RunConfig.unbound mode seconds).numerics)
    (positive : 0 < seconds) (short : 3 * seconds ≤ 63115200)
    (stage : i.lifecycle = .initializing) (unstarted : i.steps = 0) (time : i.state.time = 0)
    (takes : ∀ r, (emit i.sink r).2 = .ok ()) :
    ∃ r, i.committed? = some r ∧ i.stepOnce.result = .stepping ∧ i.stepOnce.after.IsEnduring c ∧
      i.stepOnce.after.lifecycle = .stepping ∧ i.stepOnce.after.steps = 1 ∧
      i.stepOnce.after.state = r.state ∧ i.stepOnce.after.sink = (emit i.sink r.record).1 ∧
      r.state.time.seconds = seconds := by
  have live : i.lifecycle.IsLive := .inl stage
  have begun : i.state.time.seconds = 0 := by simp [time]
  obtain ⟨s, r, gathered, passed, kept, undepleted, outcome⟩ := endures.committed live takes
  obtain ⟨afloat, horizon, budget, clock⟩ :=
    endures.step_of_numerics numerics positive (by linarith) begun.ge gathered passed
  rw [begun, zero_add] at clock
  have onward : ((i.started s).commit r).ending? s.plan s.lands = none := by
    refine ending?_eq_none_iff.mpr ⟨undepleted, ?_, by simp [unstarted, budget]⟩
    rintro (lands | arrived)
    · simp [afloat] at lands
    · have reached : s.plan.horizon.seconds ≤ r.state.time.seconds := arrived
      linarith
  refine ⟨r, committed?_eq_some_iff.mpr ⟨live, s, gathered, passed⟩, ?_⟩
  obtain ⟨_, goes, after⟩ | ⟨reason, ending, _⟩ := outcome
  · exact ⟨goes, kept, by simp [after], by simp [after, unstarted], by simp [after],
      by simp [after], clock⟩
  · exact absurd (onward.symm.trans ending) (by simp)

/-- Two steps of the given length are made one after the other with a sink that takes their
records. -/
theorem exists_steps_unbound (mode : GateMode) (seconds : ℝ) (positive : 0 < seconds)
    (short : 3 * seconds ≤ 63115200) (sink : σ) (takes : ∀ r, (emit sink r).2 = .ok ())
    (takesMore : ∀ r r', (emit (emit sink r).1 r').2 = .ok ()) :
    ∃ (start : Integrator ℝ σ) (r r' : Committed ℝ),
      Integrator.new (.unbound mode seconds) sink = .ok start ∧
      (start.session [.step]).trace = [r] ∧ (start.session [.step, .step]).trace = [r, r'] ∧
      r.state.time.seconds = seconds ∧ r'.state.time.seconds = 2 * seconds ∧
      (start.session [.step]).after.sink = (emit sink r.record).1 := by
  obtain ⟨start, accepted, endures, _, stage, unstarted, time, rfl⟩ :=
    exists_new_unbound mode positive sink
  obtain ⟨r, first, goes, kept, stage', _, state, held, clock⟩ :=
    endures.first_of_numerics rfl positive short stage unstarted time takes
  have goesOn : start.stepOnce.after.lifecycle.IsLive := .inr stage'
  have reached : start.stepOnce.after.state.time.seconds = seconds := by rw [state, clock]
  obtain ⟨s', r', gathered', passed', _⟩ :=
    kept.committed goesOn fun r' => by rw [held]; exact takesMore r.record r'
  obtain ⟨_, _, _, clock'⟩ :=
    kept.step_of_numerics rfl positive (by linarith) (by linarith) gathered' passed'
  have second : start.stepOnce.after.committed? = some r' :=
    committed?_eq_some_iff.mpr ⟨goesOn, s', gathered', passed'⟩
  refine ⟨start, r, r', accepted, ?_, ?_, clock, by rw [clock', reached]; ring, ?_⟩
  · rw [trace_step, first]
    rfl
  · rw [session_step, first, goes]
    simp [StepResult.isAnswer, trace_step, second]
  · rw [session_step, goes]
    exact held

end Integrator
end DebrisDisk
