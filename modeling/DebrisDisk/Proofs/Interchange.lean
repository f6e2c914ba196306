import DebrisDisk.Proofs.Driving

/-!
# Configurations that can be interchanged

Two configurations are interchangeable when every state is evaluated alike under both, the supply
draws and delivers alike, and an evaluation moves the same mass and makes the same report. Only
deliveries that the supply can make are asked about: a supply without a history delivers nothing,
and how it would spread something does not matter.

Exchanging the configuration of a run for such a one commutes with every call, so it commutes with
whole runs and sessions. For one call less is enough: `Integrator.StepsAlike` only asks about the
step that comes next. Two histories of the surface make it alike when they give it the same
temperature.

## Main results

* `Integrator.stepOnce_of_stepsAlike`: a call under a configuration that makes its step alike.
* `Integrator.stepOnce_withConfig`, `Integrator.run_withConfig`: calls under the other
  configuration.
* `Integrator.session_withConfig`: sessions under the other configuration.
* `Integrator.stepsAlike_under`, `RunConfig.prepare_under`: runs under another surface.
-/

namespace DebrisDisk
open Scalar DiagnosticsSink
variable {α σ ρ : Type}

/-- Both configurations make the same steps. -/
structure RunConfig.Interchangeable [Scalar α] (c d : RunConfig α) : Prop where
  disk : d.disk = c.disk
  solar : d.radiation.solar = c.radiation.solar
  numerics : d.numerics = c.numerics
  evaluate : ∀ selector state, d.evaluate selector state = c.evaluate selector state
  supply : ∀ t dt g, d.supply.sampleMass t dt g = c.supply.sampleMass t dt g
  advance : ∀ (e : Evaluation α) (step : Nat) (t dt : Time α) (g : Random.Generator)
    (horizon : Option (Time α)) (state : DiskState α) (ledger : MassLedger α),
    e.advance d step dt horizon (c.supply.sampleMass t dt g).1 state ledger =
      e.advance c step dt horizon (c.supply.sampleMass t dt g).1 state ledger

/-- The run under another configuration. -/
def Integrator.withConfig (i : Integrator α σ) (d : RunConfig α) : Integrator α σ :=
  { i with config := d }

/-- The answer under another configuration. -/
def Progress.withConfig (p : Progress α σ ρ) (d : RunConfig α) : Progress α σ ρ :=
  { p with after := p.after.withConfig d }

/-- The session under another configuration. -/
def Session.withConfig (s : Session α σ) (d : RunConfig α) : Session α σ :=
  { s with after := s.after.withConfig d }

namespace Integrator
variable [Scalar α] {i : Integrator α σ} {d : RunConfig α}

/-! ## One call -/

/-- The step that comes next is the same under the other configuration. -/
structure StepsAlike (i : Integrator α σ) (d : RunConfig α) : Prop where
  numerics : d.numerics = i.config.numerics
  inputs : (i.withConfig d).inputs = i.inputs
  advance : ∀ s, i.inputs = .ok s → (i.withConfig d).advance s = i.advance s

/-- Interchangeable configurations make every step alike. -/
theorem stepsAlike_of_interchangeable (same : i.config.Interchangeable d) : i.StepsAlike d where
  numerics := same.numerics
  inputs := by
    simp only [inputs, withConfig, planned, same.evaluate, same.numerics, same.supply]
  advance s gathered := by
    simp only [inputs, bind_eq_ok_iff, pure, Except.pure, Except.ok.injEq] at gathered
    obtain ⟨e, _, rfl⟩ := gathered
    exact same.advance _ _ _ _ _ _ _ _

/-- The same step is committed next. -/
theorem committed?_withConfig (same : i.config.Interchangeable d) :
    (i.withConfig d).committed? = i.committed? := by
  have alike := stepsAlike_of_interchangeable same
  by_cases live : i.lifecycle.IsLive
  · rw [committed?_of_live live, committed?_of_live (i := i.withConfig d) live, alike.inputs]
    cases gathered : i.inputs with
    | error e => rfl
    | ok s => simp [Except.toOption, alike.advance s gathered]
  · rw [committed?_of_not_live live, committed?_of_not_live (i := i.withConfig d) live]

variable [DiagnosticsSink α σ]

theorem terminate_withConfig (i : Integrator α σ) (d : RunConfig α) (reason : TerminationReason) :
    (i.withConfig d).terminate reason = (i.terminate reason).withConfig d := by
  simp only [terminate, withConfig]
  cases i.ledger.check with
  | error e => rfl
  | ok checked =>
    simp only
    cases (finish i.sink).2 <;> rfl

theorem handOver_withConfig (same : d.numerics = i.config.numerics) (p : StepPlan α) (lands : Bool)
    (record : StepRecord α) :
    (i.withConfig d).handOver p lands record = (i.handOver p lands record).withConfig d := by
  have ending : ({ i.withConfig d with sink := (emit i.sink record).1 } : Integrator α σ).ending? p
      lands = ({ i with sink := (emit i.sink record).1 } : Integrator α σ).ending? p lands := by
    simp only [ending?, withConfig, same]
    rfl
  have sent : emit (i.withConfig d).sink record = emit i.sink record := rfl
  simp only [handOver, sent, ending]
  cases (emit i.sink record).2 with
  | error e => rfl
  | ok _ =>
    cases ({ i with sink := (emit i.sink record).1 } : Integrator α σ).ending? p lands with
    | none => rfl
    | some reason => exact terminate_withConfig { i with sink := (emit i.sink record).1 } d reason

theorem StepsAlike.attempt (alike : i.StepsAlike d) :
    (i.withConfig d).attempt = i.attempt.withConfig d := by
  rw [attempt_eq, attempt_eq, alike.inputs]
  cases gathered : i.inputs with
  | error e => rfl
  | ok s =>
    simp only [alike.advance s gathered]
    cases i.advance s with
    | error o => rfl
    | ok r =>
      have handed := handOver_withConfig (i := (i.started s).commit r) alike.numerics s.plan s.lands
        r.record
      have moved : ((i.withConfig d).started s).commit r = ((i.started s).commit r).withConfig d :=
        rfl
      simp only [moved, handed]
      rfl

/-- One call under a configuration that makes the next step alike. Nothing is asked of a run that is
over. -/
theorem stepOnce_of_stepsAlike (alike : i.lifecycle.IsLive → i.StepsAlike d) :
    (i.withConfig d).stepOnce = i.stepOnce.withConfig d := by
  by_cases live : i.lifecycle.IsLive
  · have failed (after : Integrator α σ) (e : StepError α) :
        (after.withConfig d).fail i.steps e = (after.fail i.steps e).withConfig d := rfl
    rw [stepOnce_of_live live, stepOnce_of_live (i := i.withConfig d) live,
      (alike live).attempt]
    cases answer : i.attempt.result with
    | error o =>
      cases o with
      | refused => simp [Progress.withConfig, answer]
      | failed e =>
        have steps : (i.withConfig d).steps = i.steps := rfl
        simp only [Progress.withConfig, answer, steps, failed]
    | ok ending =>
      cases ending with
      | none => simp [Progress.withConfig, answer, withConfig]
      | some reason => simp [Progress.withConfig, answer, withConfig]
  · cases stage : i.lifecycle with
    | initializing => simp [stage] at live
    | stepping => simp [stage] at live
    | terminating reason =>
      have stage' : (i.withConfig d).lifecycle = .terminating reason := stage
      simp [stepOnce, stage, stage', Progress.withConfig]
    | failed step =>
      have stage' : (i.withConfig d).lifecycle = .failed step := stage
      simp [stepOnce, stage, stage', Progress.withConfig]

/-- One call under the other configuration. -/
theorem stepOnce_withConfig (same : i.config.Interchangeable d) :
    (i.withConfig d).stepOnce = i.stepOnce.withConfig d :=
  stepOnce_of_stepsAlike fun _ => stepsAlike_of_interchangeable same

/-- A call leaves the configuration as it is. -/
theorem config_stepOnce (i : Integrator α σ) : i.stepOnce.after.config = i.config := by
  have effect := i.stepOnce_effect
  generalize i.stepOnce.after = after at effect
  cases effect <;> rfl

theorem config_afterCalls (i : Integrator α σ) (n : Nat) : (i.afterCalls n).config = i.config :=
  afterCalls_induction (P := fun j => j.config = i.config) rfl
    (fun j same => j.config_stepOnce.trans same) n

/-- Calls under a configuration that makes each of their steps alike. -/
theorem afterCalls_of_stepsAlike {k : Nat}
    (alike : ∀ n < k, (i.afterCalls n).lifecycle.IsLive → (i.afterCalls n).StepsAlike d) {n : Nat}
    (upTo : n ≤ k) : (i.withConfig d).afterCalls n = (i.afterCalls n).withConfig d := by
  induction n with
  | zero => rfl
  | succ n ih =>
    rw [afterCalls_succ, afterCalls_succ, ih (by omega), stepOnce_of_stepsAlike (alike n upTo)]
    rfl

/-- A whole run under a configuration that makes each of its steps alike gives the same answer. -/
theorem run_result_of_stepsAlike
    (alike : ∀ n, (i.afterCalls n).lifecycle.IsLive → (i.afterCalls n).StepsAlike d) :
    (i.withConfig d).run.result = i.run.result := by
  obtain ⟨n, lasts⟩ := i.exists_lasts
  have call (k : Nat) : ((i.withConfig d).afterCalls k).stepOnce =
      (i.afterCalls k).stepOnce.withConfig d := by
    rw [afterCalls_of_stepsAlike (fun m _ => alike m) (Nat.le_refl k),
      stepOnce_of_stepsAlike (alike k)]
  have lasts' : (i.withConfig d).Lasts n := {
    onward := fun k hk => by
      rw [call]
      exact lasts.onward k hk
    stops := by
      rw [call]
      exact lasts.stops }
  have answer := lasts'.run.2
  rw [call] at answer
  exact Option.some.inj (answer.symm.trans lasts.run.2)

/-! ## Whole runs -/

/-- A whole run under the other configuration: its end and the steps that it commits. -/
theorem loop_withConfig (same : i.config.Interchangeable d) :
    (i.withConfig d).loop = i.loop.withConfig d ∧
      (i.withConfig d).loopCommits = i.loopCommits := by
  induction i using loop.induct with
  | case1 i after events made ih =>
    have config := i.config_stepOnce
    rw [made] at config
    obtain ⟨last, commits⟩ := ih (config ▸ same)
    have made' := stepOnce_withConfig same
    rw [made] at made'
    constructor
    · rw [loop, loop, made, made']
      simp only [Progress.withConfig, last]
    · rw [loopCommits, loopCommits, made, made', committed?_withConfig same]
      simp only [Progress.withConfig, commits]
  | case2 i after reason events made =>
    have made' := stepOnce_withConfig same
    rw [made] at made'
    rw [loop, loop, loopCommits, loopCommits, made, made', committed?_withConfig same]
    exact ⟨rfl, rfl⟩
  | case3 i after e events made =>
    have made' := stepOnce_withConfig same
    rw [made] at made'
    rw [loop, loop, loopCommits, loopCommits, made, made', committed?_withConfig same]
    exact ⟨rfl, rfl⟩
  | case4 i after events made =>
    have made' := stepOnce_withConfig same
    rw [made] at made'
    rw [loop, loop, loopCommits, loopCommits, made, made', committed?_withConfig same]
    exact ⟨rfl, rfl⟩

/-- A request for a whole run under the other configuration. -/
theorem run_withConfig (same : i.config.Interchangeable d) :
    (i.withConfig d).run = i.run.withConfig d := by
  have opening : (i.withConfig d).opening = i.opening := by
    simp only [Integrator.opening, withConfig, same.disk, same.solar]
  simp only [run, opening, (loop_withConfig same).1]
  rfl

theorem answer_withConfig (same : i.config.Interchangeable d) (demand : Demand) :
    (i.withConfig d).answer demand = (i.answer demand).withConfig d := by
  cases demand with
  | step =>
    simp only [answer, stepOnce_withConfig same, committed?_withConfig same]
    rfl
  | run =>
    simp only [answer, run_withConfig same, (loop_withConfig same).2]
    rfl

/-- A request leaves the configuration as it is. -/
theorem config_answer (i : Integrator α σ) (demand : Demand) :
    (i.answer demand).after.config = i.config := by
  cases demand with
  | step => exact i.config_stepOnce
  | run =>
    obtain ⟨n, lasts⟩ := i.exists_lasts
    rw [answer, lasts.run.1]
    exact i.config_afterCalls _

/-- A session leaves the configuration as it is. -/
theorem config_session (i : Integrator α σ) (demands : List Demand) :
    (i.session demands).after.config = i.config := by
  induction demands generalizing i with
  | nil => rfl
  | cons demand rest ih =>
    simp only [session]
    split
    · exact (ih _).trans (i.config_answer demand)
    · exact i.config_answer demand

/-- A session under the other configuration. -/
theorem session_withConfig (same : i.config.Interchangeable d) (demands : List Demand) :
    (i.withConfig d).session demands = (i.session demands).withConfig d := by
  induction demands generalizing i with
  | nil => rfl
  | cons demand rest ih =>
    have next : (i.answer demand).after.config.Interchangeable d := by
      rwa [config_answer]
    have later := ih next
    have made := answer_withConfig same demand
    simp only [Session.withConfig] at later made ⊢
    simp only [session, made, later]
    cases answered : (i.answer demand).answered <;> simp [answered]

end Integrator

/-! ## Another surface -/

namespace RunConfig
variable {h : SurfaceHistory α}

/-- The configuration under another surface. -/
def under (c : RunConfig α) (h : SurfaceHistory α) : RunConfig α :=
  { c with temperature := { c.temperature with history := h } }

variable [Scalar α] {c : RunConfig α}

/-- A valid configuration is valid under every surface that is. -/
theorem IsValid.under (valid : c.IsValid) (history : h.IsValid) : (c.under h).IsValid :=
  { valid with history }

/-- A run is prepared alike under another surface when both pass their checks alike and declare the
same temperature. -/
theorem prepare_under (checked : h.validate = c.temperature.history.validate)
    (declared : h.initial? = c.temperature.history.initial?) : (c.under h).prepare = c.prepare := by
  have validated : (c.under h).validate = c.validate := by
    simp only [validate, under, checked]
    rfl
  have opened (bins : SizeBins α) : (c.under h).initialState bins = c.initialState bins := by
    simp only [initialState, under, declared]
    rfl
  simp only [prepare, validated, opened]
  simp only [under, checked]
  rfl

/-- A state is evaluated alike under another surface of the same kind that gives its time the same
temperature. -/
theorem evaluate_under {state : DiskState α}
    (surface : (c.under h).surfaceAt state.time = c.surfaceAt state.time)
    (source : h.source = c.temperature.history.source) (selector : PressureSelector α) :
    (c.under h).evaluate selector state = c.evaluate selector state := by
  simp only [evaluate, surface]
  simp only [under, source]
  rfl

end RunConfig

/-- A step is made alike under another surface that gives its time the same temperature. -/
theorem Integrator.stepsAlike_under [Scalar α] {i : Integrator α σ} {h : SurfaceHistory α}
    (surface : (i.config.under h).surfaceAt i.state.time = i.config.surfaceAt i.state.time)
    (source : h.source = i.config.temperature.history.source) :
    i.StepsAlike (i.config.under h) where
  numerics := rfl
  inputs := by
    simp only [inputs, withConfig, RunConfig.evaluate_under surface source]
    rfl
  advance _ _ := rfl

end DebrisDisk
