import DebrisDisk.Proofs.Outcome
import DebrisDisk.Run.Integrator

/-!
# What validation establishes

A configuration is accepted when every check passes, and the checks are equivalent to plain
conditions on the entries. `RunConfig.IsValid` collects them under names, section by section, so
that later statements ask for the one condition they need.

Only comparisons and finiteness are tested, so all of this holds for every carrier of numbers. A
check that an entry is not below a bound is kept in that form: an undefined entry passes it.

## Main results

* `RunConfig.validate_eq_ok_iff`: the checks pass exactly for valid configurations.
* `RunConfig.prepare_eq_ok`: what the preparation of a run gives.
* `Integrator.new_eq_ok`: a run that was accepted starts from a preparation.
-/

namespace DebrisDisk
open Scalar DiagnosticsSink
variable {α : Type} [Scalar α]

/-! ## Single checks -/

omit [Scalar α] in
@[simp] theorem requireOf_eq_ok_iff {β : Type} {x : Option β} {p : β → Prop} [DecidablePred p]
    {e : ConfigError α} {u : Unit} : requireOf x p e = .ok u ↔ ∀ y, x = some y → p y := by
  cases x with
  | none => simp [requireOf]
  | some y => simp [requireOf]

@[simp] theorem Scalar.isPositive_iff {x : α} :
    isPositive x = true ↔ 0 < x ∧ isFinite x = true := by
  simp [isPositive]

@[simp] theorem Scalar.isNonneg_iff {x : α} : isNonneg x = true ↔ 0 ≤ x ∧ isFinite x = true := by
  simp [isNonneg]

theorem SupplyHistory.checkSegments_eq_ok_iff {segments : List (SupplySegment α)} {u : Unit} :
    checkSegments segments = .ok u ↔
      ∀ s ∈ segments, (0 ≤ s.rate ∧ isFinite s.rate = true) ∧ ¬ s.stop ≤ s.start := by
  induction segments with
  | nil => simp [checkSegments]
  | cons s rest ih => simp [checkSegments, checkRate, ih, and_assoc]

theorem SupplyHistory.checkRows_eq_ok_iff {rows : List (SupplyRow α)} {u : Unit} :
    checkRows rows = .ok u ↔ ∀ r ∈ rows, 0 ≤ r.rate ∧ isFinite r.rate = true := by
  induction rows with
  | nil => simp [checkRows]
  | cons r rest ih => simp [checkRows, checkRate, ih]

/-- The parameters of a supply history are usable. -/
def SupplyHistory.IsValid : SupplyHistory α → Prop
  | none => True
  | constant rate => 0 ≤ rate ∧ isFinite rate = true
  | powerLaw l => (0 ≤ l.amplitude ∧ isFinite l.amplitude = true) ∧ ¬ l.softening ≤ 0
  | piecewise segments =>
    ∀ s ∈ segments, (0 ≤ s.rate ∧ isFinite s.rate = true) ∧ ¬ s.stop ≤ s.start
  | table rows => rows ≠ [] ∧ Table.descends (rows.map (·.time)) = false ∧
    ∀ r ∈ rows, 0 ≤ r.rate ∧ isFinite r.rate = true

theorem SupplyHistory.validate_eq_ok_iff {h : SupplyHistory α} {u : Unit} :
    h.validate = .ok u ↔ h.IsValid := by
  cases h with
  | none => simp [validate, IsValid]
  | constant rate => simp [validate, checkRate, IsValid]
  | powerLaw l => simp [validate, checkRate, IsValid]
  | piecewise segments => simp [validate, IsValid, checkSegments_eq_ok_iff]
  | table rows => simp [validate, IsValid, checkRows_eq_ok_iff]

/-- The initial temperature and the parameters of a surface history are usable. -/
def SurfaceHistory.IsValid (h : SurfaceHistory α) : Prop :=
  (∃ t0, h.initial? = some t0 ∧ minInitial ≤ t0 ∧ t0 ≤ maxInitial) ∧
  match h with
  | constant _ => True
  | table t => t.rows ≠ [] ∧
    (∀ r ∈ t.rows, isFinite r.time = true ∧ isFinite r.temperature = true ∧ ¬ r.temperature ≤ 0) ∧
    Table.descends (t.rows.map (·.time)) = false
  | slab l => ¬ (l.depth ≤ 0 ∨ l.density ≤ 0 ∨ l.heatCapacity ≤ 0)
  | linear l => ¬ (l.floor < 0 ∨ l.initial ≤ l.floor ∨ l.depth ≤ 0)

theorem SurfaceHistory.validate_eq_ok_iff {h : SurfaceHistory α} {u : Unit} :
    h.validate = .ok u ↔ h.IsValid := by
  simp only [validate, IsValid]
  cases h with
  | constant t => simp [initial?]
  | table t =>
    cases rows : t.rows with
    | nil => simp [initial?, rows]
    | cons r rest => simp [initial?, rows, TemperatureTable.checkRows, and_assoc]
  | slab l => simp [initial?]
  | linear l => simp [initial?]

/-! ## A whole configuration -/

/-- The horizon of a run in seconds, unless two are given. -/
def NumericsSettings.horizon? (n : NumericsSettings α) (omega : AngularVelocity α) :
    Option (Time α) :=
  match n.years, n.orbits with
  | some _, some _ => none
  | some years, none => some (Time.ofYears years)
  | none, some orbits => some (omega.period * orbits)
  | none, none => some (Time.ofYears defaultYears)

theorem NumericsSettings.horizon_eq_ok_iff {n : NumericsSettings α} {omega : AngularVelocity α}
    {t : Time α} : n.horizon omega = .ok t ↔
      n.horizon? omega = some t ∧ 0 < t.seconds ∧ isFinite t.seconds = true := by
  have settled (x : Time α) : (do
        require (isPositive x.seconds) (.horizon x.seconds : ConfigError α)
        return x) = .ok t ↔ some x = some t ∧ 0 < t.seconds ∧ isFinite t.seconds = true := by
    simp only [bind_eq_ok_iff, require_eq_ok_iff, isPositive_iff, pure, Except.pure,
      Except.ok.injEq, exists_const, Option.some.injEq]
    constructor
    · rintro ⟨usable, rfl⟩
      exact ⟨rfl, usable⟩
    · rintro ⟨rfl, usable⟩
      exact ⟨usable, rfl⟩
  simp only [horizon, horizon?]
  cases n.years with
  | none =>
    cases n.orbits with
    | none => exact settled _
    | some orbits => exact settled _
  | some years =>
    cases n.orbits with
    | none => exact settled _
    | some orbits => simp

/-- Every entry of a configuration is usable. -/
structure RunConfig.IsValid (c : RunConfig α) : Prop where
  orbit : marsRadius < c.geometry.radius.metres ∧ isFinite c.geometry.radius.metres = true
  width : (0 < c.geometry.widthFraction ∧ isFinite c.geometry.widthFraction = true) ∧
    c.geometry.widthFraction ≤ 1
  density : 0 < c.material.density ∧ isFinite c.material.density = true
  sizes : (0 < c.sizes.smallest ∧ isFinite c.sizes.smallest = true) ∧
    c.sizes.smallest < c.sizes.greatest
  bins : 0 < c.sizes.bins
  mass : 0 < c.initial.marsMasses ∧ isFinite c.initial.marsMasses = true
  lower : ∀ s, c.initial.smallest = some s →
    (0 < s ∧ isFinite s = true) ∧ s < c.sizes.greatest
  history : c.temperature.history.IsValid
  absorption : 0 < c.temperature.absorption ∧ isFinite c.temperature.absorption = true
  efficiency : 0 < c.radiation.efficiency ∧ isFinite c.radiation.efficiency = true
  threshold : 0 < c.radiation.threshold ∧ isFinite c.radiation.threshold = true
  blowoutEfficiency : ∀ chi, c.radiation.blowoutEfficiency = .fixed chi →
    0 < chi ∧ isFinite chi = true
  override : ∀ beta, c.radiation.override = some beta → 0 ≤ beta ∧ isFinite beta = true
  depthGate : 0 < c.radiation.depthGate.maxDepth ∧ isFinite c.radiation.depthGate.maxDepth = true
  ramp : (0 < c.phase.condense ∧ isFinite c.phase.condense = true) ∧
    c.phase.condense < c.phase.vaporize
  evaporation : (0 < c.sublimation.evaporation ∧ isFinite c.sublimation.evaporation = true) ∧
    c.sublimation.evaporation ≤ 1
  molarMass : 0 < c.sublimation.molarMass ∧ isFinite c.sublimation.molarMass = true
  gasPressure : 0 ≤ c.sublimation.gasPressure ∧ isFinite c.sublimation.gasPressure = true
  fragmentSlope : c.collisions.slope < 4.0 ∧ isFinite c.collisions.slope = true
  vaporOpacity : 0 ≤ c.shielding.vaporOpacity ∧ isFinite c.shielding.vaporOpacity = true
  fastThreshold : 0 ≤ c.blowout.fastStep.threshold ∧
    isFinite c.blowout.fastStep.threshold = true
  strictThreshold : 0 ≤ c.blowout.fastStep.strictThreshold ∧
    isFinite c.blowout.fastStep.strictThreshold = true
  gasDrag : c.sinks.gasDrag.enabled = true →
    (0 < c.sinks.gasDrag.gasDensity ∧ isFinite c.sinks.gasDrag.gasDensity = true) ∧
    0 < c.sinks.gasDrag.soundSpeed ∧ isFinite c.sinks.gasDrag.soundSpeed = true
  hydroEscape : c.sinks.hydroEscape.enabled = true →
    (0 ≤ c.sinks.hydroEscape.strength ∧ isFinite c.sinks.hydroEscape.strength = true) ∧
    (0 < c.sinks.hydroEscape.reference ∧ isFinite c.sinks.hydroEscape.reference = true) ∧
    isFinite c.sinks.hydroEscape.exponent = true ∧
    0 ≤ c.sinks.hydroEscape.fractionFloor ∧ isFinite c.sinks.hydroEscape.fractionFloor = true
  supply : c.supply.history.IsValid
  mixing : 0 ≤ c.supply.mixing ∧ isFinite c.supply.mixing = true
  jitter : 0 ≤ c.supply.jitter ∧ isFinite c.supply.jitter = true
  injectionSlope : c.supply.slope < 4.0 ∧ isFinite c.supply.slope = true
  fixedStep : ∀ seconds, c.numerics.step = .fixed seconds → 0 < seconds ∧ isFinite seconds = true
  safety : (0 < c.numerics.safety ∧ isFinite c.numerics.safety = true) ∧ c.numerics.safety ≤ 1
  maxSteps : ∀ n, c.numerics.maxSteps = some n → 0 < n
  massFloor : (0 ≤ c.numerics.massFloor ∧ isFinite c.numerics.massFloor = true) ∧
    c.numerics.massFloor < 1
  horizon : ∃ t, c.numerics.horizon c.geometry.disk.omega = .ok t
  tolerance : 0 < c.budget.tolerance ∧ isFinite c.budget.tolerance = true

/-! ## Section by section -/

theorem GeometrySettings.validate_eq_ok_iff {g : GeometrySettings α} {u : Unit} :
    g.validate = .ok u ↔ (marsRadius < g.radius.metres ∧ isFinite g.radius.metres = true) ∧
      (0 < g.widthFraction ∧ isFinite g.widthFraction = true) ∧ g.widthFraction ≤ 1 := by
  simp [validate]

theorem SizeGridSettings.validate_eq_ok_iff {s : SizeGridSettings α} {u : Unit} :
    s.validate = .ok u ↔
      ((0 < s.smallest ∧ isFinite s.smallest = true) ∧ s.smallest < s.greatest) ∧ 0 < s.bins := by
  simp [validate]

theorem InitialSettings.validate_eq_ok_iff {s : InitialSettings α} {greatest : α} {u : Unit} :
    s.validate greatest = .ok u ↔ (0 < s.marsMasses ∧ isFinite s.marsMasses = true) ∧
      ∀ x, s.smallest = some x → (0 < x ∧ isFinite x = true) ∧ x < greatest := by
  simp [validate]

theorem RadiationSettings.validate_eq_ok_iff {s : RadiationSettings α} {u : Unit} :
    s.validate = .ok u ↔ (0 < s.efficiency ∧ isFinite s.efficiency = true) ∧
      (0 < s.threshold ∧ isFinite s.threshold = true) ∧
      (∀ chi, s.blowoutEfficiency = .fixed chi → 0 < chi ∧ isFinite chi = true) ∧
      (∀ beta, s.override = some beta → 0 ≤ beta ∧ isFinite beta = true) ∧
      0 < s.depthGate.maxDepth ∧ isFinite s.depthGate.maxDepth = true := by
  simp only [validate]
  cases s.blowoutEfficiency with
  | fixed chi => simp
  | automatic => simp

theorem SublimationSettings.validate_eq_ok_iff {s : SublimationSettings α} {u : Unit} :
    s.validate = .ok u ↔
      ((0 < s.evaporation ∧ isFinite s.evaporation = true) ∧ s.evaporation ≤ 1) ∧
      (0 < s.molarMass ∧ isFinite s.molarMass = true) ∧
      0 ≤ s.gasPressure ∧ isFinite s.gasPressure = true := by
  simp [validate]

theorem FastStepSettings.validate_eq_ok_iff {s : FastStepSettings α} {u : Unit} :
    s.validate = .ok u ↔ (0 ≤ s.threshold ∧ isFinite s.threshold = true) ∧
      0 ≤ s.strictThreshold ∧ isFinite s.strictThreshold = true := by
  simp [validate]

theorem SinkSettings.validate_eq_ok_iff {s : SinkSettings α} {u : Unit} :
    s.validate = .ok u ↔
      (s.gasDrag.enabled = true →
        (0 < s.gasDrag.gasDensity ∧ isFinite s.gasDrag.gasDensity = true) ∧
        0 < s.gasDrag.soundSpeed ∧ isFinite s.gasDrag.soundSpeed = true) ∧
      (s.hydroEscape.enabled = true →
        (0 ≤ s.hydroEscape.strength ∧ isFinite s.hydroEscape.strength = true) ∧
        (0 < s.hydroEscape.reference ∧ isFinite s.hydroEscape.reference = true) ∧
        isFinite s.hydroEscape.exponent = true ∧
        0 ≤ s.hydroEscape.fractionFloor ∧ isFinite s.hydroEscape.fractionFloor = true) := by
  simp [validate]

theorem SupplySettings.validate_eq_ok_iff {s : SupplySettings α} {u : Unit} :
    s.validate = .ok u ↔ s.history.IsValid ∧ (0 ≤ s.mixing ∧ isFinite s.mixing = true) ∧
      (0 ≤ s.jitter ∧ isFinite s.jitter = true) ∧
      s.slope < 4.0 ∧ isFinite s.slope = true := by
  simp [validate, SupplyHistory.validate_eq_ok_iff]

theorem NumericsSettings.validate_eq_ok_iff {s : NumericsSettings α} {omega : AngularVelocity α}
    {u : Unit} :
    s.validate omega = .ok u ↔
      (∀ seconds, s.step = .fixed seconds → 0 < seconds ∧ isFinite seconds = true) ∧
      ((0 < s.safety ∧ isFinite s.safety = true) ∧ s.safety ≤ 1) ∧
      (∀ n, s.maxSteps = some n → 0 < n) ∧
      ((0 ≤ s.massFloor ∧ isFinite s.massFloor = true) ∧ s.massFloor < 1) ∧
      ∃ t, s.horizon omega = .ok t := by
  simp only [validate]
  cases s.step with
  | fixed seconds => simp [pure, Except.pure]
  | automatic => simp [pure, Except.pure]

namespace RunConfig

/-- The checks pass exactly when every entry is usable. -/
theorem validate_eq_ok_iff {c : RunConfig α} {u : Unit} : c.validate = .ok u ↔ c.IsValid := by
  simp only [validate, bind_eq_ok_iff, exists_const, require_eq_ok_iff, isPositive_iff,
    isNonneg_iff, GeometrySettings.validate_eq_ok_iff, SizeGridSettings.validate_eq_ok_iff,
    InitialSettings.validate_eq_ok_iff, SurfaceHistory.validate_eq_ok_iff,
    RadiationSettings.validate_eq_ok_iff, SublimationSettings.validate_eq_ok_iff,
    FastStepSettings.validate_eq_ok_iff, SinkSettings.validate_eq_ok_iff,
    SupplySettings.validate_eq_ok_iff, NumericsSettings.validate_eq_ok_iff]
  constructor
  · rintro ⟨⟨orbit, width⟩, density, ⟨sizes, bins⟩, ⟨mass, lower⟩, history, absorption,
      ⟨efficiency, threshold, blowoutEfficiency, override, depthGate⟩, ramp,
      ⟨evaporation, molarMass, gasPressure⟩, fragmentSlope, vaporOpacity,
      ⟨fastThreshold, strictThreshold⟩, ⟨gasDrag, hydroEscape⟩,
      ⟨supply, mixing, jitter, injectionSlope⟩,
      ⟨fixedStep, safety, maxSteps, massFloor, horizon⟩, tolerance⟩
    exact { orbit, width, density, sizes, bins, mass, lower, history, absorption, efficiency,
            threshold, blowoutEfficiency, override, depthGate, ramp, evaporation, molarMass,
            gasPressure, fragmentSlope, vaporOpacity, fastThreshold, strictThreshold, gasDrag,
            hydroEscape, supply, mixing, jitter, injectionSlope, fixedStep, safety, maxSteps,
            massFloor, horizon, tolerance }
  · intro h
    exact ⟨⟨h.orbit, h.width⟩, h.density, ⟨h.sizes, h.bins⟩, ⟨h.mass, h.lower⟩, h.history,
      h.absorption,
      ⟨h.efficiency, h.threshold, h.blowoutEfficiency, h.override, h.depthGate⟩, h.ramp,
      ⟨h.evaporation, h.molarMass, h.gasPressure⟩, h.fragmentSlope, h.vaporOpacity,
      ⟨h.fastThreshold, h.strictThreshold⟩, ⟨h.gasDrag, h.hydroEscape⟩,
      ⟨h.supply, h.mixing, h.jitter, h.injectionSlope⟩,
      ⟨h.fixedStep, h.safety, h.maxSteps, h.massFloor, h.horizon⟩, h.tolerance⟩

/-! ## Preparation -/

/-- The initial grains are a power law on a grid of equal logarithmic widths. -/
theorem initialBins_eq_ok {c : RunConfig α} {bins : SizeBins α} (h : c.initialBins = .ok bins) :
    ∃ empty, SizeBins.logSpaced ⟨c.sizes.smallest⟩ ⟨c.sizes.greatest⟩ c.sizes.bins
        ⟨c.material.density⟩ = .ok empty ∧
      empty.withPowerLaw (.ofMarsMasses c.initial.marsMasses) c.initial.slope
        ⟨c.initial.smallest.getD c.sizes.smallest⟩ = .ok bins := by
  simpa [initialBins] using h

/-- A run is prepared from a valid configuration: its laws, its initial grains and the accounts
opened on their mass. -/
theorem prepare_eq_ok {c : RunConfig α} {p : Preparation α} (h : c.prepare = .ok p) :
    c.IsValid ∧ c.numerics.horizon c.disk.omega = .ok p.horizon ∧
      c.sublimation.selector = .ok p.selector ∧
      ∃ bins, c.initialBins = .ok bins ∧ p.state = c.initialState bins ∧
        (0 < bins.totalMass.kilograms ∧ isFinite bins.totalMass.kilograms = true) ∧
        p.ledger = { initial := bins.totalMass.kilograms, totals := .zero
                     current := bins.totalMass.kilograms, tolerance := c.budget.tolerance
                     maxError := 0 } := by
  simp only [prepare, MassLedger.opening, bind_eq_ok_iff, require_eq_ok_iff, isPositive_iff,
    validate_eq_ok_iff, pure, Except.pure, Except.ok.injEq, exists_const] at h
  obtain ⟨valid, horizon, horizonOf, _, _, selector, selectorOf, bins, binsOf, ledger,
    ⟨positive, rfl⟩, rfl⟩ := h
  exact ⟨valid, horizonOf, selectorOf, bins, binsOf, rfl, positive, rfl⟩

/-- A valid configuration with usable vapor pressure laws is prepared once its initial grains have a
positive finite mass. -/
theorem prepare_of_initialBins {c : RunConfig α} (valid : c.IsValid) {selector : PressureSelector α}
    (laws : c.sublimation.selector = .ok selector) {bins : SizeBins α}
    (initial : c.initialBins = .ok bins)
    (mass : 0 < bins.totalMass.kilograms ∧ isFinite bins.totalMass.kilograms = true) :
    ∃ p, c.prepare = .ok p ∧ p.selector = selector ∧ p.state = c.initialState bins := by
  obtain ⟨horizon, horizonOf⟩ := valid.horizon
  have history : c.temperature.history.validate = .ok () :=
    SurfaceHistory.validate_eq_ok_iff.mpr valid.history
  have checked : c.validate = .ok () := validate_eq_ok_iff.mpr valid
  refine ⟨{
    selector, horizon, state := c.initialState bins
    ledger := {
      initial := bins.totalMass.kilograms, totals := .zero, current := bins.totalMass.kilograms
      tolerance := c.budget.tolerance, maxError := 0 } }, ?_, rfl, rfl⟩
  simp only [prepare, MassLedger.opening, bind_eq_ok_iff, require_eq_ok_iff, isPositive_iff, pure,
    Except.pure, Except.ok.injEq, exists_const, disk]
  exact ⟨(), checked, horizon, horizonOf, (), history, selector, laws, bins, initial, _,
    ⟨mass, rfl⟩, rfl⟩

end RunConfig

/-- An accepted run starts from a preparation of its configuration. -/
theorem Integrator.new_eq_ok {σ : Type} [DiagnosticsSink α σ] {c : RunConfig α} {sink : σ}
    {i : Integrator α σ} (h : Integrator.new c sink = .ok i) :
    ∃ p, c.prepare = .ok p ∧ i = {
      config := c, selector := p.selector, state := p.state, ledger := p.ledger
      random := .ofSeed c.seed, sink, horizon := p.horizon, plan := none
      lifecycle := .initializing, steps := 0 } := by
  simp only [Integrator.new] at h
  split at h
  · rename_i p prepared
    simp only [Except.ok.injEq] at h
    exact ⟨p, prepared, h.symm⟩
  · simp at h

/-- A prepared configuration is accepted. -/
theorem Integrator.new_of_prepare {σ : Type} [DiagnosticsSink α σ] {c : RunConfig α}
    {p : Preparation α} (prepared : c.prepare = .ok p) (sink : σ) :
    Integrator.new c sink = .ok {
      config := c, selector := p.selector, state := p.state, ledger := p.ledger
      random := .ofSeed c.seed, sink, horizon := p.horizon, plan := none
      lifecycle := .initializing, steps := 0 } := by
  simp only [Integrator.new]
  rw [prepared]

end DebrisDisk
