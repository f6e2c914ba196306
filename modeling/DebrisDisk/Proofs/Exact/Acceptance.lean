import DebrisDisk.Proofs.Commit
import DebrisDisk.Proofs.Exact.PowerLaw

/-!
# Acceptance in exact arithmetic

A power law that starts below the configured top of the grid fills the bins with just its mass. So
in exact arithmetic every valid configuration whose vapor pressure laws are usable is accepted, and
the run starts with the configured mass. The baseline run is one of them.

## Main results

* `RunConfig.prepare_of_isValid`: valid configurations are accepted, with the configured mass.
* `RunConfig.isValid_default`: the baseline run is valid.
* `Integrator.exists_new_default`: the baseline run is accepted, and its first step has its inputs.
-/

namespace DebrisDisk
open Scalar DiagnosticsSink

/-! ## Configurations -/

namespace RunConfig

section Annulus
variable {c : RunConfig ℝ} (valid : c.IsValid)
include valid

theorem IsValid.radius_pos : 0 < c.disk.radius.metres := by
  have mars : (0 : ℝ) < marsRadius := by norm_num [marsRadius]
  exact mars.trans valid.orbit.1

theorem IsValid.omega_pos : 0 < c.disk.omega.radiansPerSecond := by
  have radius := valid.radius_pos
  have pull : (0 : ℝ) < gravitation * marsMass := by norm_num [gravitation, marsMass]
  exact Real.sqrt_pos.mpr (div_pos pull (mul_pos (mul_pos radius radius) radius))

theorem IsValid.area_pos : 0 < c.disk.area := by
  have radius := valid.radius_pos
  have turn : (0 : ℝ) < 2.0 * pi := by norm_num [pi]
  exact mul_pos (mul_pos turn radius) (mul_pos radius valid.width.1.1)

end Annulus

/-- In exact arithmetic every valid configuration with usable vapor pressure laws is accepted, and
the run starts with the configured mass. -/
theorem prepare_of_isValid {c : RunConfig ℝ} (valid : c.IsValid) {selector : PressureSelector ℝ}
    (laws : c.sublimation.selector = .ok selector) :
    ∃ p, c.prepare = .ok p ∧ p.selector = selector ∧
      p.state.totalMass = .ofMarsMasses c.initial.marsMasses := by
  obtain ⟨empty, spaced⟩ : ∃ empty, SizeBins.logSpaced ⟨c.sizes.smallest⟩ ⟨c.sizes.greatest⟩
      c.sizes.bins ⟨c.material.density⟩ = .ok empty :=
    SizeBins.exists_logSpaced valid.sizes.1.1 valid.sizes.2 valid.bins.ne' valid.density.1
  obtain ⟨span, hspan⟩ := SizeBins.exists_span_of_logSpaced spaced
  have lower : c.initial.smallest.getD c.sizes.smallest < empty.maxSize.metres := by
    rw [(SizeBins.ends_of_logSpaced spaced).2]
    cases smallest : c.initial.smallest with
    | none => exact valid.sizes.2
    | some s => exact (valid.lower s smallest).2
  obtain ⟨bins, filled, total⟩ := (SizeBins.isGrid_logSpaced spaced).1.exists_withPowerLaw hspan
    (.ofMarsMasses c.initial.marsMasses) c.initial.slope lower
  have initial : c.initialBins = .ok bins := by
    simp only [initialBins]
    rw [spaced]
    exact filled
  have positive : 0 < bins.totalMass.kilograms := by
    rw [total]
    exact mul_pos valid.mass.1 (by unfold marsMass; norm_num)
  obtain ⟨p, prepared, selected, state⟩ := prepare_of_initialBins valid laws initial ⟨positive, rfl⟩
  refine ⟨p, prepared, selected, ?_⟩
  rw [state]
  exact total

/-- The baseline run is valid. -/
theorem isValid_default : (RunConfig.default : RunConfig ℝ).IsValid where
  orbit := by
    simp [RunConfig.default, GeometrySettings.default, GeometrySettings.radius, Length.ofMarsRadii,
      marsRadius]
    norm_num
  width := by norm_num [RunConfig.default, GeometrySettings.default]
  density := by norm_num [RunConfig.default, MaterialSettings.default]
  sizes := by norm_num [RunConfig.default, SizeGridSettings.default]
  bins := by norm_num [RunConfig.default, SizeGridSettings.default]
  mass := by norm_num [RunConfig.default, InitialSettings.default]
  lower := by simp [RunConfig.default, InitialSettings.default]
  history := by
    refine ⟨⟨4000, ?_, ?_, ?_⟩, trivial⟩
    · norm_num [RunConfig.default, TemperatureSettings.default, SurfaceHistory.default,
        SurfaceHistory.initial?]
    · norm_num [SurfaceHistory.minInitial]
    · norm_num [SurfaceHistory.maxInitial]
  absorption := by norm_num [RunConfig.default, TemperatureSettings.default]
  efficiency := by norm_num [RunConfig.default, RadiationSettings.default]
  threshold := by norm_num [RunConfig.default, RadiationSettings.default, circularThreshold]
  blowoutEfficiency := by simp [RunConfig.default, RadiationSettings.default]
  override := by simp [RunConfig.default, RadiationSettings.default]
  depthGate := by norm_num [RunConfig.default, RadiationSettings.default]
  ramp := by norm_num [RunConfig.default, PhaseSettings.default]
  evaporation := by norm_num [RunConfig.default, SublimationSettings.default]
  molarMass := by norm_num [RunConfig.default, SublimationSettings.default]
  gasPressure := by norm_num [RunConfig.default, SublimationSettings.default]
  fragmentSlope := by norm_num [RunConfig.default, CollisionSettings.default]
  vaporOpacity := by norm_num [RunConfig.default, ShieldingSettings.default]
  fastThreshold := by
    norm_num [RunConfig.default, BlowoutSettings.default, FastStepSettings.default]
  strictThreshold := by
    norm_num [RunConfig.default, BlowoutSettings.default, FastStepSettings.default]
  gasDrag := by simp [RunConfig.default, SinkSettings.default, GasDragSettings.default]
  hydroEscape := by simp [RunConfig.default, SinkSettings.default, HydroEscapeSettings.default]
  supply := trivial
  mixing := by norm_num [RunConfig.default, SupplySettings.default]
  jitter := by norm_num [RunConfig.default, SupplySettings.default]
  injectionSlope := by norm_num [RunConfig.default, SupplySettings.default]
  fixedStep := by
    simp [RunConfig.default, NumericsSettings.default, StepSize.default]
    norm_num
  safety := by norm_num [RunConfig.default, NumericsSettings.default]
  maxSteps := by simp [RunConfig.default, NumericsSettings.default]
  massFloor := by norm_num [RunConfig.default, NumericsSettings.default]
  horizon := by
    refine ⟨Time.ofYears 2, NumericsSettings.horizon_eq_ok_iff.mpr ⟨?_, ?_, rfl⟩⟩
    · norm_num [NumericsSettings.horizon?, RunConfig.default, NumericsSettings.default,
        NumericsSettings.defaultYears]
    · norm_num [Time.ofYears]
  tolerance := by norm_num [RunConfig.default, BudgetSettings.default]

/-- The baseline run has no table of vapor pressures. -/
theorem selector_default : (RunConfig.default : RunConfig ℝ).sublimation.selector =
    .ok (.ladder [] (RunConfig.default : RunConfig ℝ).sublimation.baseline) := by
  simp [RunConfig.default, SublimationSettings.default, SublimationSettings.selector,
    SublimationSettings.candidates, pure, Except.pure, bind, Except.bind]

/-- A disk at the orbit of the baseline run can be evaluated in every state in which its surface has
a temperature, without a table of vapor pressures. -/
theorem exists_evaluate_of_surface {c : RunConfig ℝ} (geometry : c.geometry = .default)
    (absorbing : 0 < c.temperature.absorption) (baseline : ClausiusLaw ℝ) {state : DiskState ℝ}
    {surface : Temperature ℝ} (found : c.surfaceAt state.time = .ok surface)
    (warm : 0 < surface.kelvin) : ∃ e, c.evaluate (.ladder [] baseline) state = .ok e := by
  have grains : 0 < (c.grainsUnder surface).kelvin := by
    simp only [grainsUnder, grainTemperature, disk, geometry, GeometrySettings.disk,
      GeometrySettings.default, GeometrySettings.radius, Length.ofMarsRadii, marsRadius,
      Quantity.base_mul, pow_real, sqrt_real]
    positivity
  simp only [evaluate]
  rw [found]
  simp [bind, Except.bind, pure, Except.pure, PhaseSettings.evaluate, grains,
    PressureSelector.select, PressureSelector.law]

/-- A disk at the orbit and under the surface of the baseline run can be evaluated in every state,
without a table of vapor pressures. -/
theorem exists_evaluate {c : RunConfig ℝ} (geometry : c.geometry = .default)
    (temperature : c.temperature = .default) (baseline : ClausiusLaw ℝ)
    (state : DiskState ℝ) : ∃ e, c.evaluate (.ladder [] baseline) state = .ok e := by
  have surface : c.surfaceAt state.time = .ok ⟨4000⟩ := by
    norm_num [surfaceAt, temperature, TemperatureSettings.default, SurfaceHistory.default,
      SurfaceHistory.temperatureAt, Except.mapError, bind, Except.bind, pure, Except.pure]
  refine exists_evaluate_of_surface geometry ?_ baseline surface (by norm_num)
  norm_num [temperature, TemperatureSettings.default]

/-- The baseline run can be evaluated in every state. -/
theorem evaluate_default (state : DiskState ℝ) : ∃ e, RunConfig.default.evaluate
    (.ladder [] (RunConfig.default : RunConfig ℝ).sublimation.baseline) state = .ok e :=
  exists_evaluate rfl rfl _ state

end RunConfig

/-- A run is accepted with any sink if its configuration is valid and has a vapor pressure. -/
theorem Integrator.exists_new_of_isValid {c : RunConfig ℝ} (valid : c.IsValid)
    {selector : PressureSelector ℝ} (laws : c.sublimation.selector = .ok selector) {σ : Type}
    [DiagnosticsSink ℝ σ] (sink : σ) :
    ∃ start : Integrator ℝ σ, Integrator.new c sink = .ok start := by
  obtain ⟨p, prepared, _⟩ := RunConfig.prepare_of_isValid valid laws
  exact ⟨_, new_of_prepare prepared sink⟩

/-- The baseline run is accepted with any sink, and its first step has its inputs. -/
theorem Integrator.exists_new_default {σ : Type} [DiagnosticsSink ℝ σ] (sink : σ) :
    ∃ start : Integrator ℝ σ, Integrator.new .default sink = .ok start ∧
      ∃ s, start.inputs = .ok s := by
  obtain ⟨p, prepared, selector, _⟩ :=
    RunConfig.prepare_of_isValid RunConfig.isValid_default RunConfig.selector_default
  obtain ⟨e, evaluated⟩ := RunConfig.evaluate_default p.state
  refine ⟨_, new_of_prepare prepared sink, ?_⟩
  simp only [inputs, selector, evaluated]
  exact ⟨_, rfl⟩

end DebrisDisk
