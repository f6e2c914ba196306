import DebrisDisk.Run.Advance
import DebrisDisk.Run.Plan
import DebrisDisk.Run.Sink

/-!
# The integrator

An `Integrator` owns the committed state and the accounts. A step evaluates every model against the
committed state, advances copies, and replaces state and accounts only when the whole step passed;
then it hands its record to the sink. The first step also plans the step length.

A run ends when hardly any mass is left, at the horizon, or when the step budget is spent, in this
order of precedence, or when a step fails. The sink is finished in every case. After the end,
further steps change nothing.

## Main definitions

* `Integrator.new`: checks a configuration and prepares its first state.
* `Integrator.stepOnce`, `Integrator.run`.
-/

namespace DebrisDisk
open Scalar DiagnosticsSink

/-- The stages of a run. -/
inductive Lifecycle where
  /-- The step length is not planned yet. -/
  | initializing
  | stepping
  | terminating (reason : TerminationReason)
  /-- The step with this number failed. -/
  | failed (step : Nat)
  deriving DecidableEq, Repr

/-- A run in progress. -/
structure Integrator (α σ : Type) where
  config : RunConfig α
  selector : PressureSelector α
  state : DiskState α
  ledger : MassLedger α
  random : Random.Generator
  sink : σ
  horizon : Time α
  /-- The plan, once it is made. -/
  plan : Option (StepPlan α)
  lifecycle : Lifecycle
  steps : Nat

/-- The end of a run. -/
structure RunSummary (α : Type) where
  reason : TerminationReason
  steps : Nat
  finalTime : Time α
  finalMass : Mass α
  ledger : MassLedger α
  maxError : α
  deriving DecidableEq, Repr

/-- The answer to a request for one step. -/
inductive StepResult (α : Type) where
  | stepping
  | terminated (reason : TerminationReason)
  /-- The step failed, now or before. -/
  | error (e : RunError α)
  | refused
  deriving DecidableEq, Repr

/-- The answer to a request for a whole run. -/
inductive RunResult (α : Type) where
  | summary (s : RunSummary α)
  | error (e : RunError α)
  | refused
  deriving DecidableEq, Repr

/-- An answer, the run after it, and what was announced meanwhile. -/
structure Progress (α σ ρ : Type) where
  after : Integrator α σ
  result : ρ
  events : List (Event α)

variable {α : Type} [Scalar α]

/-! ## Preparation -/

/-- What is prepared before the first step. -/
structure Preparation (α : Type) where
  selector : PressureSelector α
  state : DiskState α
  ledger : MassLedger α
  horizon : Time α

namespace RunConfig

/-- The initial grains. -/
def initialBins (c : RunConfig α) : Except (ConfigError α) (SizeBins α) := do
  let empty ← SizeBins.logSpaced ⟨c.sizes.smallest⟩ ⟨c.sizes.greatest⟩ c.sizes.bins
    ⟨c.material.density⟩
  empty.withPowerLaw (.ofMarsMasses c.initial.marsMasses) c.initial.slope
    ⟨c.initial.smallest.getD c.sizes.smallest⟩

/-- The state before the first step: the initial grains, without vapor, under the surface as the
configuration declares it. -/
def initialState (c : RunConfig α) (bins : SizeBins α) : DiskState α :=
  let floor := c.sizeFloorOf bins
  let active := bins.activeSummary floor.size.metres
  let sigma := active.mass / c.disk.area
  let tau := active.kappa * sigma
  let shielding := c.shielding.apply { tau, kappa := active.kappa, sigma, vaporFraction := 0 }
  let surface : Temperature α := ⟨c.temperature.history.initial?.getD 0⟩
  { time := 0, bins, surface, grains := c.grainsUnder surface, tau
    pathDepth := shielding.pathDepth, floor := floor.size, model := none, phase := none
    totals := .zero }

/-- Checks a configuration and prepares its first step. -/
def prepare (c : RunConfig α) : Except (ConfigError α) (Preparation α) := do
  c.validate
  let horizon ← c.numerics.horizon c.disk.omega
  c.temperature.history.validate
  let selector ← c.sublimation.selector
  let bins ← c.initialBins
  let ledger ← MassLedger.opening bins.totalMass c.budget.tolerance
  return { selector, state := c.initialState bins, ledger, horizon }

end RunConfig

/-- The announcement of a sink that could not be finished. -/
def finishEvents : Except SinkError Unit → List (Event α)
  | .ok () => []
  | .error e => [.finishFailed e]

namespace Integrator
variable {σ : Type} [DiagnosticsSink α σ]

/-- A run before its first step, or why the configuration is rejected; the sink of a rejected
configuration is finished. -/
def new (c : RunConfig α) (sink : σ) :
    Except (ConfigError α × σ × List (Event α)) (Integrator α σ) :=
  match c.prepare with
  | .ok p => .ok {
      config := c, selector := p.selector, state := p.state, ledger := p.ledger
      random := .ofSeed c.seed, sink, horizon := p.horizon, plan := none
      lifecycle := .initializing, steps := 0 }
  | .error e =>
    let (sink, finished) := finish sink
    .error (e, sink, finishEvents finished)

/-! ## One step -/

/-- The plan of a run, and whether it is a new one. -/
def planned (i : Integrator α σ) (timescales : TimescaleSet α) : StepPlan α × List (Event α) :=
  match i.plan with
  | some p => (p, [])
  | none =>
    let p := i.config.numerics.plan i.horizon timescales
    (p, [.planned p.dt p.horizon p.maxSteps])

/-- What a commit changes beside the numbers. -/
def transitions (before after : DiskState α) : List (Event α) :=
  (if before.model = after.model then []
    else match after.model with
      | some model => [.lawSelected model after.grains]
      | none => [])
  ++ (if before.phase = after.phase then []
    else [.phaseChanged after.phase after.grains after.time])

/-- Why the run ends after a committed step, if it does. -/
def ending? (i : Integrator α σ) (p : StepPlan α) (lands : Bool) : Option TerminationReason :=
  if i.state.totalMass.kilograms < i.config.numerics.massFloor * i.ledger.initial then
    some .massDepleted
  else if lands = true ∨ p.horizon.seconds ≤ i.state.time.seconds then some .timeHorizon
  else if p.maxSteps ≤ i.steps then some .stepLimit
  else none

/-- The run after a step passed, before its record is handed over. -/
def commit (i : Integrator α σ) (r : Committed α) : Integrator α σ :=
  { i with state := r.state, ledger := r.ledger, steps := i.steps + 1 }

/-- Ends the run for a reason: the accounts are checked once more and the sink is finished. -/
def terminate (i : Integrator α σ) (reason : TerminationReason) :
    Progress α σ (Except (Obstacle α) (Option TerminationReason)) :=
  match i.ledger.check with
  | .error e => { after := i, result := .error (.failed e), events := [] }
  | .ok (_, ledger) =>
    let (sink, finished) := finish i.sink
    let i := { i with ledger, sink }
    match finished with
    | .error e => { after := i, result := .error (.failed (.sink e)), events := [] }
    | .ok () => {
        after := i
        result := .ok (some reason)
        events := [.terminated reason i.steps i.state.time i.state.totalMass.kilograms
          i.ledger.maxError] }

/-- Hands over the record of the step that was committed and looks for the end of the run. -/
def handOver (i : Integrator α σ) (p : StepPlan α) (lands : Bool) (record : StepRecord α) :
    Progress α σ (Except (Obstacle α) (Option TerminationReason)) :=
  let (sink, emitted) := emit i.sink record
  let i := { i with sink }
  match emitted with
  | .error e => { after := i, result := .error (.failed (.sink e)), events := [] }
  | .ok () =>
    match i.ending? p lands with
    | none => { after := i, result := .ok none, events := [] }
    | some reason => i.terminate reason

/-- Attempts a step: the reason for which the run ended with it, if any, or what stood against the
step. -/
def attempt (i : Integrator α σ) :
    Progress α σ (Except (Obstacle α) (Option TerminationReason)) :=
  match i.config.evaluate i.selector i.state with
  | .error e => { after := i, result := .error (.failed e), events := [] }
  | .ok evaluation =>
    let (p, planEvents) := i.planned evaluation.timescales
    let (dt, lands) := p.next i.state.time
    let (delivered, random) := i.config.supply.sampleMass i.state.time dt i.random
    let begun := evaluation.event :: planEvents
    let i := { i with plan := some p, random }
    match evaluation.advance i.config i.steps dt (if lands then some p.horizon else none) delivered
        i.state i.ledger with
    | .error o => { after := i, result := .error o, events := begun }
    | .ok r =>
      let events := begun ++ r.event evaluation :: transitions i.state r.state
      let rest := (i.commit r).handOver p lands r.record
      { rest with events := events ++ rest.events }

/-- Ends a run whose step failed; the sink is finished. -/
def fail (i : Integrator α σ) (step : Nat) (e : StepError α) : Progress α σ (StepResult α) :=
  let (sink, finished) := finish i.sink
  { after := { i with sink, lifecycle := .failed step }
    result := .error (.step step e)
    events := .stepFailed step e :: finishEvents finished }

/-- Makes one step. After the end of the run nothing changes, and the answer is the same again. -/
def stepOnce (i : Integrator α σ) : Progress α σ (StepResult α) :=
  match i.lifecycle with
  | .terminating reason => { after := i, result := .terminated reason, events := [] }
  | .failed step => { after := i, result := .error (.halted step), events := [] }
  | .initializing | .stepping =>
    let tried := i.attempt
    match tried.result with
    | .ok none =>
      { after := { tried.after with lifecycle := .stepping }, result := .stepping
        events := tried.events }
    | .ok (some reason) =>
      { after := { tried.after with lifecycle := .terminating reason }
        result := .terminated reason, events := tried.events }
    | .error .refused => { after := tried.after, result := .refused, events := tried.events }
    | .error (.failed e) =>
      let failed := tried.after.fail i.steps e
      { failed with events := tried.events ++ failed.events }

/-! ## A whole run -/

/-- The end of a run. -/
def summary (i : Integrator α σ) (reason : TerminationReason) : RunSummary α where
  reason
  steps := i.steps
  finalTime := i.state.time
  finalMass := i.state.totalMass
  ledger := i.ledger
  maxError := i.ledger.maxError

/-- The steps that the plan still allows; before the plan is made, more than any plan. -/
def allowance (i : Integrator α σ) : Nat × Nat :=
  match i.plan with
  | none => (1, 0)
  | some p => (0, p.maxSteps - i.steps)

omit [Scalar α] [DiagnosticsSink α σ] in
@[simp] theorem allowance_of_plan {i : Integrator α σ} {p : StepPlan α} (h : i.plan = some p) :
    i.allowance = (0, p.maxSteps - i.steps) := by
  simp [allowance, h]

/-- An attempt to end a run either fails or ends it. -/
theorem terminate_ne_goOn (i : Integrator α σ) (reason : TerminationReason) :
    (i.terminate reason).result ≠ .ok none := by
  unfold terminate
  split
  · simp
  · simp only
    split <;> simp

omit [DiagnosticsSink α σ] in
/-- A run without an end in sight has steps left. -/
theorem lt_maxSteps_of_ending?_eq_none {i : Integrator α σ} {p : StepPlan α} {lands : Bool}
    (h : i.ending? p lands = none) : i.steps < p.maxSteps := by
  unfold ending? at h
  split at h
  · simp at h
  · split at h
    · simp at h
    · split at h
      · simp at h
      · omega

/-- A run that goes on after a record was handed over has steps left. -/
theorem lt_maxSteps_of_handOver {i : Integrator α σ} {p : StepPlan α} {lands : Bool}
    {r : StepRecord α} (h : (i.handOver p lands r).result = .ok none) :
    (i.handOver p lands r).after.plan = i.plan ∧ (i.handOver p lands r).after.steps = i.steps
      ∧ i.steps < p.maxSteps := by
  unfold handOver at h ⊢
  simp only at h ⊢
  split at h
  · simp at h
  · split at h
    · rename_i none_ending
      exact ⟨rfl, rfl, lt_maxSteps_of_ending?_eq_none none_ending⟩
    · exact absurd h (terminate_ne_goOn _ _)

/-- A run that goes on after a step was attempted follows one plan and has steps left. -/
theorem allowance_of_attempt {i : Integrator α σ} (h : i.attempt.result = .ok none) :
    ∃ p, i.attempt.after.plan = some p ∧ (i.plan = none ∨ i.plan = some p)
      ∧ i.attempt.after.steps = i.steps + 1 ∧ i.steps + 1 < p.maxSteps := by
  unfold attempt at h ⊢
  split at h
  · simp at h
  · rename_i evaluation _
    simp only at h ⊢
    split at h
    · simp at h
    · obtain ⟨hplan, hsteps, hlt⟩ := lt_maxSteps_of_handOver h
      refine ⟨(i.planned evaluation.timescales).1, hplan, ?_, hsteps, hlt⟩
      unfold planned
      cases i.plan with
      | none => exact .inl rfl
      | some p => exact .inr rfl

/-- A step after which the run goes on leaves it a smaller allowance. -/
theorem allowance_lt_of_stepping {i : Integrator α σ} (h : i.stepOnce.result = .stepping) :
    Prod.Lex (· < ·) (· < ·) i.stepOnce.after.allowance i.allowance := by
  have key : i.attempt.result = .ok none ∧ i.stepOnce.after.plan = i.attempt.after.plan
      ∧ i.stepOnce.after.steps = i.attempt.after.steps := by
    unfold stepOnce at h ⊢
    split at h
    · simp at h
    · simp at h
    all_goals
      rename_i started
      simp only at h ⊢
      split at h <;> simp_all [fail]
  obtain ⟨attempted, hplan, hsteps⟩ := key
  obtain ⟨p, hp, before, hs, hlt⟩ := allowance_of_attempt attempted
  rw [allowance_of_plan (hplan.trans hp), hsteps, hs]
  cases before with
  | inl none => simpa [allowance, none] using Prod.Lex.left _ _ Nat.zero_lt_one
  | inr some =>
    rw [allowance_of_plan some]
    exact Prod.Lex.right _ (by omega)

/-- Makes steps until the run ends. -/
def loop (i : Integrator α σ) : Progress α σ (RunResult α) :=
  match _made : i.stepOnce with
  | ⟨after, .stepping, events⟩ =>
    let rest := loop after
    { rest with events := events ++ rest.events }
  | ⟨after, .terminated reason, events⟩ =>
    { after, result := .summary (after.summary reason), events }
  | ⟨after, .error e, events⟩ => { after, result := .error e, events }
  | ⟨after, .refused, events⟩ => { after, result := .refused, events }
termination_by i.allowance
decreasing_by
  have smaller := allowance_lt_of_stepping (i := i) (by rw [_made])
  rwa [_made] at smaller

/-- The announcements at the start of a run. -/
def opening (i : Integrator α σ) : List (Event α) :=
  .started i.config.disk.radius ⟨i.ledger.initial⟩ i.state.bins.size i.horizon
    :: (if i.config.radiation.solar then [.solarIgnored] else [])

/-- Announces the run and makes steps until it ends. -/
def run (i : Integrator α σ) : Progress α σ (RunResult α) :=
  let rest := i.loop
  { rest with events := i.opening ++ rest.events }

end Integrator
end DebrisDisk
