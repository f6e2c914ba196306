import DebrisDisk.Proofs.Exact.Enduring
import DebrisDisk.Proofs.Interchange
import DebrisDisk.Proofs.Laws

/-!
# Parameters of processes that are switched off

A process that is switched off has parameters all the same, and they are validated, stored and
handed to the models with the others. None of them may show in a run. The effective part of a
configuration is the configuration with the parameters of all switched-off features at their
defaults. Every model gives the same for a section and for its effective part, so two accepted
configurations with the same effective part make the same run.

A supply without a history delivers zero, which finds no place in the bins because zero is at most
zero. This is the one place where the order of the carrier counts.

## Main definitions

* `RunConfig.effective`: the part of a configuration that shows in a run.

## Main results

* `RunConfig.interchangeable_of_effective`: equal effective parts make the same steps.
* `Integrator.idle_parameters`: they make the same runs.
-/

namespace DebrisDisk
open Scalar DiagnosticsSink
variable {α : Type} [Scalar α]

/-! ## Section by section -/

/-- Without collisions the slope of fragments has no effect. -/
def CollisionSettings.effective (s : CollisionSettings α) : CollisionSettings α :=
  if s.enabled then s else { s with slope := CollisionSettings.default.slope }

/-- Without gas drag the properties of the gas have no effect. -/
def GasDragSettings.effective (s : GasDragSettings α) : GasDragSettings α :=
  if s.enabled then s else .default

/-- Without escape its law has no effect. -/
def HydroEscapeSettings.effective (s : HydroEscapeSettings α) : HydroEscapeSettings α :=
  if s.enabled then s else .default

/-- Without the surface energy limit its parameters have no effect. -/
def SurfaceEnergySettings.effective (s : SurfaceEnergySettings α) : SurfaceEnergySettings α :=
  if s.enabled then s else .default

/-- Without a gate its depth has no effect. -/
def RadiationSettings.effective (s : RadiationSettings α) : RadiationSettings α :=
  if s.depthGate.enabled then s else { s with depthGate := RadiationSettings.default.depthGate }

/-- Without phase changes the ramp and its references have no effect. -/
def PhaseSettings.effective (s : PhaseSettings α) : PhaseSettings α :=
  if s.enabled then s else { PhaseSettings.default with enabled := false }

/-- Without sublimation the coefficients of the flux have no effect; the vapor pressure is evaluated
all the same. -/
def SublimationSettings.effective (s : SublimationSettings α) : SublimationSettings α :=
  if s.enabled then s else { s with
    evaporation := SublimationSettings.default.evaporation
    molarMass := SublimationSettings.default.molarMass }

/-- Without shielding neither the order of the layers nor the opacity of the vapor has an effect;
the line of sight has. -/
def ShieldingSettings.effective (s : ShieldingSettings α) : ShieldingSettings α :=
  if s.enabled then s else { s with
    order := (ShieldingSettings.default : ShieldingSettings α).order
    vaporOpacity := ShieldingSettings.default.vaporOpacity }

/-- Without blow-out it does not matter when and on what it would act. -/
def BlowoutSettings.effective (s : BlowoutSettings α) : BlowoutSettings α :=
  if s.enabled then s else { s with
    target := (BlowoutSettings.default : BlowoutSettings α).target
    layer := (BlowoutSettings.default : BlowoutSettings α).layer }

/-- Without a history nothing else about the supply has an effect. -/
def SupplySettings.effective (s : SupplySettings α) : SupplySettings α :=
  match s.history with
  | .none => .default
  | _ => s

namespace CollisionSettings

theorem timescale_effective (s : CollisionSettings α) (regime : OpticalDepthRegime α)
    (omega : AngularVelocity α) :
    s.effective.timescale regime omega = s.timescale regime omega := by
  cases on : s.enabled <;> simp [effective, timescale, on]

theorem grind_effective (s : CollisionSettings α) (bins : SizeBins α) (tColl : Timescale α)
    (dt : Time α) (floor : α) :
    s.effective.grind bins tColl dt floor = s.grind bins tColl dt floor := by
  cases on : s.enabled <;> simp [effective, grind, on]

end CollisionSettings

namespace GasDragSettings

theorem timescale_effective (s : GasDragSettings α) (density size : α) :
    s.effective.timescale density size = s.timescale density size := by
  cases on : s.enabled <;> simp [effective, timescale, default, on]

theorem apply_effective (s : GasDragSettings α) (density : α) (bins : SizeBins α) (dt : Time α)
    (floor : α) : s.effective.apply density bins dt floor = s.apply density bins dt floor := by
  cases on : s.enabled <;> simp [effective, apply, default, on]

end GasDragSettings

theorem HydroEscapeSettings.timescaleIn_effective (s : HydroEscapeSettings α) (phase : PhaseTag)
    (temperature : Temperature α) (fraction : α) :
    s.effective.timescaleIn phase temperature fraction =
      s.timescaleIn phase temperature fraction := by
  cases on : s.enabled <;> simp [effective, timescaleIn, timescale, default, on]

theorem SurfaceEnergySettings.limit_effective (s : SurfaceEnergySettings α) (density : α)
    (kepler : Velocity α) (top : Length α) :
    s.effective.limit density kepler top = s.limit density kepler top := by
  cases on : s.enabled <;> simp [effective, limit, default, on]

namespace RadiationSettings

/-- Only the gate is touched. -/
theorem effective_eq (s : RadiationSettings α) :
    s.effective = { s with depthGate := s.effective.depthGate } := by
  cases on : s.depthGate.enabled <;> simp [effective, on]

theorem depthGated_effective (s : RadiationSettings α) (depth : α) :
    (s.effective.depthGate.enabled && decide (s.effective.depthGate.maxDepth < depth)) =
      (s.depthGate.enabled && decide (s.depthGate.maxDepth < depth)) := by
  cases on : s.depthGate.enabled <;> simp [effective, default, on]

end RadiationSettings

theorem PhaseSettings.evaluate_effective (s : PhaseSettings α) (selector : PressureSelector α)
    (ambient : Pressure α) (grains : Temperature α) (source : TemperatureSource) (tau : α) :
    s.effective.evaluate selector ambient grains source tau =
      s.evaluate selector ambient grains source tau := by
  cases on : s.enabled <;> simp [effective, evaluate, on]

namespace SublimationSettings

theorem rates_effective (s : SublimationSettings α) (density : α) (pressure : PressureEvaluation α)
    (grains : Temperature α) (floor : Length α) :
    s.effective.rates density pressure grains floor = s.rates density pressure grains floor := by
  cases on : s.enabled <;> simp [effective, rates, on]

/-- The laws of the vapor pressure do not depend on the flux. -/
theorem selector_effective (s : SublimationSettings α) : s.effective.selector = s.selector := by
  cases on : s.enabled with
  | false =>
    simp only [effective, on, Bool.false_eq_true, if_false]
    rfl
  | true => simp [effective, on]

theorem gasPressure_effective (s : SublimationSettings α) :
    s.effective.gasPressure = s.gasPressure := by
  cases on : s.enabled <;> simp [effective, on]

end SublimationSettings

theorem ShieldingSettings.apply_effective (s : ShieldingSettings α) (i : ShieldingInputs α) :
    s.effective.apply i = s.apply i := by
  cases on : s.enabled <;> simp [effective, apply, on]

namespace BlowoutSettings

theorem eligibleFraction_effective (s : BlowoutSettings α) (phase : PhaseTag) (skin : SkinColumn α)
    (active : α) :
    s.effective.eligibleFraction phase skin active = s.eligibleFraction phase skin active := by
  cases on : s.enabled <;> simp [effective, eligibleFraction, on]

theorem plan_effective (s : BlowoutSettings α) (dt : α) (times : List (Timescale α))
    (eligible : List α) (timescales : TimescaleSet α) (depthGated : Bool) :
    s.effective.plan dt times eligible timescales depthGated =
      s.plan dt times eligible timescales depthGated := by
  cases on : s.enabled with
  | false =>
    simp only [effective, on, Bool.false_eq_true, if_false]
    rfl
  | true => simp [effective, on]

end BlowoutSettings

namespace SupplySettings

/-- Without a history nothing is delivered and no random number is drawn. -/
theorem sampleMass_of_none {s : SupplySettings α} (off : s.history = .none) (t dt : Time α)
    (g : Random.Generator) : s.sampleMass t dt g = (0, g) := by
  simp [sampleMass, isActive, off]

theorem effective_of_none {s : SupplySettings α} (off : s.history = .none) :
    s.effective = .default := by
  simp [effective, off]

theorem effective_of_ne_none {s : SupplySettings α} (on : s.history ≠ .none) : s.effective = s := by
  cases history : s.history <;> simp_all [effective]

theorem sampleMass_effective (s : SupplySettings α) (t dt : Time α) (g : Random.Generator) :
    s.effective.sampleMass t dt g = s.sampleMass t dt g := by
  by_cases off : s.history = .none
  · rw [effective_of_none off, sampleMass_of_none off, sampleMass_of_none rfl]
  · rw [effective_of_ne_none off]

/-- What the supply delivers is spread alike. -/
theorem inject_effective [Ordered α] (s : SupplySettings α) (t dt : Time α) (g : Random.Generator)
    (bins : SizeBins α) (floor : α) :
    s.effective.inject bins (s.sampleMass t dt g).1 floor =
      s.inject bins (s.sampleMass t dt g).1 floor := by
  by_cases off : s.history = .none
  · have nothing (x : SupplySettings α) : x.inject bins 0 floor = (bins, 0) :=
      if_pos Ordered.zero_le_zero
    rw [sampleMass_of_none off, nothing, nothing]
  · rw [effective_of_ne_none off]

end SupplySettings

/-! ## Whole configurations -/

namespace RunConfig

/-- The part of a configuration that shows in a run: the parameters of every feature that is
switched off are at their defaults. -/
def effective (c : RunConfig α) : RunConfig α :=
  { c with
    radiation := c.radiation.effective
    phase := c.phase.effective
    sublimation := c.sublimation.effective
    collisions := c.collisions.effective
    sizeFloor := { c.sizeFloor with surfaceEnergy := c.sizeFloor.surfaceEnergy.effective }
    shielding := c.shielding.effective
    blowout := c.blowout.effective
    sinks := { c.sinks with
      gasDrag := c.sinks.gasDrag.effective, hydroEscape := c.sinks.hydroEscape.effective }
    supply := c.supply.effective }

variable {c d : RunConfig α}

/-- What a configuration shares with its effective part follows from the effective part. -/
theorem eq_of_effective {β : Type} {f : RunConfig α → β} (kept : ∀ x, f x.effective = f x)
    (same : c.effective = d.effective) : f c = f d := by
  rw [← kept c, same, kept d]

theorem sizeFloorOf_effective (c : RunConfig α) (bins : SizeBins α) :
    c.effective.sizeFloorOf bins = c.sizeFloorOf bins := by
  simp only [sizeFloorOf, SizeFloor.resolve, effective, SurfaceEnergySettings.limit_effective]
  rfl

/-- The initial state is that of the effective part. -/
theorem initialState_effective (c : RunConfig α) (bins : SizeBins α) :
    c.effective.initialState bins = c.initialState bins := by
  simp only [initialState, sizeFloorOf_effective]
  simp only [effective, ShieldingSettings.apply_effective]
  rfl

/-- Every state is evaluated as by the effective part. -/
theorem evaluate_effective (c : RunConfig α) (selector : PressureSelector α)
    (state : DiskState α) : c.effective.evaluate selector state = c.evaluate selector state := by
  simp only [evaluate, sizeFloorOf_effective]
  simp only [effective, PhaseSettings.evaluate_effective, SublimationSettings.rates_effective,
    SublimationSettings.gasPressure_effective, ShieldingSettings.apply_effective,
    RadiationSettings.depthGated_effective, BlowoutSettings.eligibleFraction_effective,
    CollisionSettings.timescale_effective, GasDragSettings.timescale_effective,
    HydroEscapeSettings.timescaleIn_effective]
  rw [RadiationSettings.effective_eq]
  rfl

variable [Ordered α]

/-- A step moves the same mass and makes the same report as under the effective part. -/
theorem advance_effective (c : RunConfig α) (e : Evaluation α) (step : Nat) (t dt : Time α)
    (g : Random.Generator) (horizon : Option (Time α)) (state : DiskState α)
    (ledger : MassLedger α) :
    e.advance c.effective step dt horizon (c.supply.sampleMass t dt g).1 state ledger =
      e.advance c step dt horizon (c.supply.sampleMass t dt g).1 state ledger := by
  have plan : e.blowoutPlan c.effective dt = e.blowoutPlan c dt :=
    BlowoutSettings.plan_effective ..
  have moved : e.moveMass c.effective dt (c.supply.sampleMass t dt g).1 state.bins =
      e.moveMass c dt (c.supply.sampleMass t dt g).1 state.bins := by
    simp only [Evaluation.moveMass, plan]
    simp only [effective, SupplySettings.inject_effective, CollisionSettings.grind_effective,
      GasDragSettings.apply_effective]
  have report (after : DiskState α) (ledgerError : α) (flows : MassFlows α) :
      e.recordOf c.effective step dt after ledgerError flows =
        e.recordOf c step dt after ledgerError flows := by
    simp only [Evaluation.recordOf, plan]
    simp only [effective]
    rw [RadiationSettings.effective_eq]
    rfl
  simp only [Evaluation.advance, moved, report]

/-- Configurations with the same effective part make the same steps. -/
theorem interchangeable_of_effective (same : c.effective = d.effective) :
    c.Interchangeable d := by
  have supply (t dt : Time α) (g : Random.Generator) :
      c.supply.sampleMass t dt g = d.supply.sampleMass t dt g :=
    eq_of_effective (f := fun x => x.supply.sampleMass t dt g)
      (fun _ => SupplySettings.sampleMass_effective ..) same
  refine {
    disk := eq_of_effective (fun _ => rfl) same.symm
    solar := eq_of_effective (f := fun x => x.radiation.solar) (fun x => ?_) same.symm
    numerics := eq_of_effective (fun _ => rfl) same.symm
    evaluate := fun selector state =>
      eq_of_effective (f := fun x => x.evaluate selector state)
        (fun x => x.evaluate_effective selector state) same.symm
    supply := fun t dt g => (supply t dt g).symm
    advance := fun e step t dt g horizon state ledger => ?_ }
  · simp only [effective]
    rw [RadiationSettings.effective_eq]
  · rw [← advance_effective c, same, supply, advance_effective]

omit [Ordered α] in
/-- The same first step is prepared. -/
theorem prepare_of_effective (same : c.effective = d.effective) {p q : Preparation α}
    (prepared : c.prepare = .ok p) (prepared' : d.prepare = .ok q) : p = q := by
  obtain ⟨_, horizon, selector, bins, initial, state, _, ledger⟩ := prepare_eq_ok prepared
  obtain ⟨_, horizon', selector', bins', initial', state', _, ledger'⟩ := prepare_eq_ok prepared'
  have horizons : p.horizon = q.horizon := by
    have alike : c.numerics.horizon c.disk.omega = d.numerics.horizon d.disk.omega :=
      eq_of_effective (f := fun x => x.numerics.horizon x.disk.omega) (fun _ => rfl) same
    exact Except.ok.inj (horizon.symm.trans (alike.trans horizon'))
  have selectors : p.selector = q.selector := by
    have alike : c.sublimation.selector = d.sublimation.selector :=
      eq_of_effective (f := fun x => x.sublimation.selector)
        (fun _ => SublimationSettings.selector_effective _) same
    exact Except.ok.inj (selector.symm.trans (alike.trans selector'))
  obtain rfl : bins = bins' := by
    have alike : c.initialBins = d.initialBins := eq_of_effective (fun _ => rfl) same
    exact Except.ok.inj (initial.symm.trans (alike.trans initial'))
  have states : p.state = q.state := by
    rw [state, state']
    exact eq_of_effective (f := fun x => x.initialState bins)
      (fun x => x.initialState_effective bins) same
  have ledgers : p.ledger = q.ledger := by
    have alike : c.budget = d.budget := eq_of_effective (fun _ => rfl) same
    rw [ledger, ledger', alike]
  cases p
  cases q
  simp_all

end RunConfig

/-! ## Whole runs -/

namespace Integrator
variable {σ : Type} [DiagnosticsSink α σ] {c d : RunConfig α} {sink : σ} {i j : Integrator α σ}

/-- The run of the other configuration is the same run. -/
theorem new_of_effective (accepted : Integrator.new c sink = .ok i)
    (accepted' : Integrator.new d sink = .ok j) (same : c.effective = d.effective) :
    i.config = c ∧ j = i.withConfig d := by
  obtain ⟨p, prepared, rfl⟩ := new_eq_ok accepted
  obtain ⟨q, prepared', rfl⟩ := new_eq_ok accepted'
  obtain rfl := RunConfig.prepare_of_effective same prepared prepared'
  have seed : c.seed = d.seed := RunConfig.eq_of_effective (fun _ => rfl) same
  simp [withConfig, seed]

variable [Ordered α]

/-- Accepted configurations that differ in nothing but parameters of switched-off features make the
same runs: after any requests the committed steps, the plan, the state, the accounts, the random
numbers and the sink are the same, and so are the answers and announcements of the next request. -/
theorem idle_parameters (accepted : Integrator.new c sink = .ok i)
    (accepted' : Integrator.new d sink = .ok j) (same : c.effective = d.effective)
    (demands : List Demand) :
    j.session demands = (i.session demands).withConfig d ∧
      (j.session demands).after.stepOnce = (i.session demands).after.stepOnce.withConfig d ∧
      (j.session demands).after.run = (i.session demands).after.run.withConfig d := by
  obtain ⟨config, rfl⟩ := new_of_effective accepted accepted' same
  have alike : i.config.Interchangeable d :=
    config ▸ RunConfig.interchangeable_of_effective same
  have later : (i.session demands).after.config.Interchangeable d := by
    rwa [config_session]
  have session := session_withConfig alike demands
  refine ⟨session, ?_, ?_⟩
  · rw [session]
    exact stepOnce_withConfig later
  · rw [session]
    exact run_withConfig later

end Integrator

/-! ## A disk on which nothing acts -/

namespace RunConfig

/-- The baseline run with every process switched off, without a mass floor. -/
noncomputable def dormant : RunConfig ℝ :=
  { RunConfig.default with
    phase := { PhaseSettings.default with enabled := false }
    sublimation := { SublimationSettings.default with enabled := false }
    collisions := { CollisionSettings.default with enabled := false }
    shielding := { ShieldingSettings.default with enabled := false }
    blowout := { (BlowoutSettings.default : BlowoutSettings ℝ) with enabled := false }
    numerics := { NumericsSettings.default with massFloor := 0 } }

/-- The same with the value `x` for the numbers that describe what is switched off. -/
noncomputable def dormantWith (x : ℝ) : RunConfig ℝ :=
  { dormant with
    radiation := { RadiationSettings.default with depthGate := { enabled := false, maxDepth := x } }
    phase := {
      enabled := false, condense := x, vaporize := x + 1, pressureScale := x, depthScale := x }
    sublimation := { dormant.sublimation with evaporation := x, molarMass := x }
    collisions := { enabled := false, slope := x }
    sizeFloor := { surfaceEnergy := {
      enabled := false, gamma := x, eta := x, slope := x, eccentricity := x, largestFragment := x
      target := some x } }
    shielding := { dormant.shielding with order := .dustFirst, vaporOpacity := x }
    blowout := { dormant.blowout with target := .any, layer := .full }
    sinks := {
      gasDrag := { enabled := false, gasDensity := x, soundSpeed := x }
      hydroEscape := {
        enabled := false, strength := x, reference := x, exponent := x, fractionFloor := x } }
    supply := { history := .none, mixing := x, jitter := x, slope := x } }

variable {x : ℝ}

theorem isValid_dormant : dormant.IsValid :=
  { isValid_default with massFloor := by norm_num [dormant] }

theorem isValid_dormantWith (positive : 0 < x) (atMostOne : x ≤ 1) : (dormantWith x).IsValid := by
  have shallow : x < 4.0 := by
    norm_num
    linarith
  exact {
    isValid_dormant with
    depthGate := by simp [dormantWith, positive]
    ramp := by simp [dormantWith, positive]
    evaporation := by simp [dormantWith, positive, atMostOne]
    molarMass := by simp [dormantWith, positive]
    fragmentSlope := by simpa [dormantWith] using shallow
    vaporOpacity := by simp [dormantWith, positive.le]
    gasDrag := by simp [dormantWith]
    hydroEscape := by simp [dormantWith]
    mixing := by simp [dormantWith, positive.le]
    jitter := by simp [dormantWith, positive.le]
    injectionSlope := by simpa [dormantWith] using shallow }

theorem effective_dormant : dormant.effective = (dormantWith x).effective := rfl

theorem endures_dormant : dormant.Endures where
  floorless := rfl
  evaluates p prepared state := by
    rw [← Except.ok.inj (selector_default.symm.trans (prepare_eq_ok prepared).2.2.1)]
    exact exists_evaluate rfl rfl _ state

end RunConfig

/-- Both disks on which nothing acts commit the same first step, and a whole run after it ends
alike. -/
theorem Integrator.idle_parameters_dormant : RunConfig.dormant ≠ .dormantWith 2⁻¹ ∧
    ∃ (start start' : Integrator ℝ (Obliging ℝ)) (r : Committed ℝ),
      Integrator.new .dormant { answer := .ok () } = .ok start ∧
      Integrator.new (.dormantWith 2⁻¹) { answer := .ok () } = .ok start' ∧
      (start.session [.step]).trace = [r] ∧ (start'.session [.step]).trace = [r] ∧
      (start'.session [.step]).after.run.result = (start.session [.step]).after.run.result := by
  constructor
  · intro same
    have slopes := congrArg (fun c : RunConfig ℝ => c.collisions.slope) same
    norm_num [RunConfig.dormant, RunConfig.dormantWith, CollisionSettings.default] at slopes
  · obtain ⟨start, accepted, endures, _, stage, _⟩ := exists_new_of_endures
      RunConfig.isValid_dormant RunConfig.selector_default RunConfig.endures_dormant
      ({ answer := .ok () } : Obliging ℝ)
    have valid : (RunConfig.dormantWith 2⁻¹).IsValid :=
      RunConfig.isValid_dormantWith (by norm_num) (by norm_num)
    obtain ⟨p, prepared, _⟩ := RunConfig.prepare_of_isValid valid RunConfig.selector_default
    have accepted' := new_of_prepare prepared ({ answer := .ok () } : Obliging ℝ)
    obtain ⟨r, one⟩ := endures.exists_step (.inl stage)
    obtain ⟨session, _, run⟩ :=
      idle_parameters accepted accepted' RunConfig.effective_dormant [.step]
    refine ⟨start, _, r, accepted, accepted', one, ?_, ?_⟩
    · rw [session]
      exact one
    · rw [run]
      rfl

end DebrisDisk
