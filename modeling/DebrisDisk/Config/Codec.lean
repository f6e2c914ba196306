import DebrisDisk.Config
import DebrisDisk.Document.Choice

/-!
# Configuration documents

The written form of a configuration: the names of all entries, in the order in which a section is
written as an array, and the entries that may be left out. Entries that are left out keep the value
of the baseline run. Names of entries carry their units.

## Main definitions

* `RunConfig.codec` and the codecs of the sections.
* `RunConfig.read`: from the text of a document to a checked configuration.
-/

namespace DebrisDisk
variable {α : Type} [Scalar α]

/-! ## Sections with numbers alone -/

/-- The orbit of the disk. -/
def GeometrySettings.codec : Codec α (GeometrySettings α) := .record .default [
  .defaulted "r_mars_radii" .real (·.marsRadii) fun x s => { s with marsRadii := x },
  .defaulted "r_m" (.optional .real) (·.metres) fun x s => { s with metres := x },
  .defaulted "width_fraction" .real (·.widthFraction) fun x s => { s with widthFraction := x }]

/-- The material of the grains. -/
def MaterialSettings.codec : Codec α (MaterialSettings α) := .record .default [
  .defaulted "density_kg_m3" .real (·.density) fun x s => { s with density := x }]

/-- The grid of grain sizes. -/
def SizeGridSettings.codec : Codec α (SizeGridSettings α) := .record .default [
  .defaulted "s_min_m" .real (·.smallest) fun x s => { s with smallest := x },
  .defaulted "s_max_m" .real (·.greatest) fun x s => { s with greatest := x },
  .defaulted "n_bins" .count (·.bins) fun x s => { s with bins := x }]

/-- The initial population. -/
def InitialSettings.codec : Codec α (InitialSettings α) := .record .default [
  .defaulted "mass_total_mars_masses" .real (·.marsMasses) fun x s => { s with marsMasses := x },
  .defaulted "q" .real (·.slope) fun x s => { s with slope := x },
  .defaulted "s_min_m" (.optional .real) (·.smallest) fun x s => { s with smallest := x }]

/-- Phase changes. -/
def PhaseSettings.codec : Codec α (PhaseSettings α) := .record .default [
  .defaulted "enabled" .truth (·.enabled) fun x s => { s with enabled := x },
  .defaulted "t_condense_k" .real (·.condense) fun x s => { s with condense := x },
  .defaulted "t_vaporize_k" .real (·.vaporize) fun x s => { s with vaporize := x },
  .defaulted "p_ref_bar" .real (·.pressureScale) fun x s => { s with pressureScale := x },
  .defaulted "tau_ref" .real (·.depthScale) fun x s => { s with depthScale := x }]

/-- Collisional grinding. -/
def CollisionSettings.codec : Codec α (CollisionSettings α) := .record .default [
  .defaulted "enabled" .truth (·.enabled) fun x s => { s with enabled := x },
  .defaulted "fragment_q" .real (·.slope) fun x s => { s with slope := x }]

/-- The surface energy limit. -/
def SurfaceEnergySettings.codec : Codec α (SurfaceEnergySettings α) := .record .default [
  .defaulted "enabled" .truth (·.enabled) fun x s => { s with enabled := x },
  .defaulted "gamma_j_m2" .real (·.gamma) fun x s => { s with gamma := x },
  .defaulted "eta" .real (·.eta) fun x s => { s with eta := x },
  .defaulted "alpha_frag" .real (·.slope) fun x s => { s with slope := x },
  .defaulted "eccentricity" .real (·.eccentricity) fun x s => { s with eccentricity := x },
  .defaulted "largest_fragment_mass_fraction" .real (·.largestFragment)
    fun x s => { s with largestFragment := x },
  .defaulted "s0_m" (.optional .real) (·.target) fun x s => { s with target := x }]

/-- The size floor. -/
def SizeFloorSettings.codec : Codec α (SizeFloorSettings α) := .record .default [
  .defaulted "surface_energy" SurfaceEnergySettings.codec (·.surfaceEnergy)
    fun x s => { s with surfaceEnergy := x }]

/-- Gas drag. -/
def GasDragSettings.codec : Codec α (GasDragSettings α) := .record .default [
  .defaulted "enabled" .truth (·.enabled) fun x s => { s with enabled := x },
  .defaulted "rho_gas_kg_m3" .real (·.gasDensity) fun x s => { s with gasDensity := x },
  .defaulted "sound_speed_m_s" .real (·.soundSpeed) fun x s => { s with soundSpeed := x }]

/-- Hydrodynamic escape. -/
def HydroEscapeSettings.codec : Codec α (HydroEscapeSettings α) := .record .default [
  .defaulted "enabled" .truth (·.enabled) fun x s => { s with enabled := x },
  .defaulted "strength_per_s" .real (·.strength) fun x s => { s with strength := x },
  .defaulted "t_ref_k" .real (·.reference) fun x s => { s with reference := x },
  .defaulted "temp_power" .real (·.exponent) fun x s => { s with exponent := x },
  .defaulted "f_vap_floor" .real (·.fractionFloor) fun x s => { s with fractionFloor := x }]

/-- The loss with the gas. -/
def SinkSettings.codec : Codec α (SinkSettings α) := .record .default [
  .defaulted "gas_drag" GasDragSettings.codec (·.gasDrag) fun x s => { s with gasDrag := x },
  .defaulted "hydro_escape" HydroEscapeSettings.codec (·.hydroEscape)
    fun x s => { s with hydroEscape := x }]

/-- The mass ledger. -/
def BudgetSettings.codec : Codec α (BudgetSettings α) := .record .default [
  .defaulted "tolerance_percent" .real (·.tolerance) fun x s => { s with tolerance := x }]

/-! ## Surface temperature -/

/-- A row of a temperature table. -/
def TemperatureRow.codec : Codec α (TemperatureRow α) := .record ⟨0, 0⟩ [
  .required "time_s" .real (·.time) fun x r => { r with time := x },
  .required "temperature_k" .real (·.temperature) fun x r => { r with temperature := x }]

/-- What holds outside a table. -/
def Extrapolation.codec : Codec α Extrapolation :=
  .namedInTagged [("hold", .hold), ("error", .fail)]

/-- The history of the surface temperature. -/
def SurfaceHistory.codec : Codec α (SurfaceHistory α) := .tagged "mode" [
  .fielded "constant" 0 [.required "temperature_k" .real id fun x _ => x]
    .constant (fun | .constant t => some t | _ => none),
  .fielded "table" ⟨[], .hold⟩ [
      .required "rows" (.list TemperatureRow.codec) (·.rows) fun x t => { t with rows := x },
      .defaulted "extrapolation" Extrapolation.codec (·.extrapolation)
        fun x t => { t with extrapolation := x }]
    .table (fun | .table t => some t | _ => none),
  .fielded "slab_cooling" ⟨0, 1.0e5, 3000.0, 1000.0⟩ [
      .required "t0_k" .real (·.initial) fun x l => { l with initial := x },
      .defaulted "layer_depth_m" .real (·.depth) fun x l => { l with depth := x },
      .defaulted "density_kg_m3" .real (·.density) fun x l => { l with density := x },
      .defaulted "heat_capacity_j_kg_k" .real (·.heatCapacity)
        fun x l => { l with heatCapacity := x }]
    .slab (fun | .slab l => some l | _ => none),
  .fielded "hyodo_linear" ⟨0, 200.0, 1.0e5⟩ [
      .required "t0_k" .real (·.initial) fun x l => { l with initial := x },
      .defaulted "floor_k" .real (·.floor) fun x l => { l with floor := x },
      .defaulted "layer_depth_m" .real (·.depth) fun x l => { l with depth := x }]
    .linear (fun | .linear l => some l | _ => none)]

/-- The heating of the grains. -/
def TemperatureSettings.codec : Codec α (TemperatureSettings α) := .record .default [
  .defaulted "driver" SurfaceHistory.codec (·.history) fun x s => { s with history := x },
  .defaulted "q_abs_mean" .real (·.absorption) fun x s => { s with absorption := x }]

/-! ## Radiation -/

/-- The blow-out efficiency. -/
def BlowoutEfficiency.codec : Codec α (BlowoutEfficiency α) := .choice [
  .holding "fixed" .real .fixed (fun | .fixed chi => some chi | .automatic => none),
  .unit "auto" .automatic (fun | .automatic => true | .fixed _ => false)]

/-- The gate on the optical depth. -/
def DepthGateSettings.codec : Codec α (DepthGateSettings α) := .record ⟨false, 1⟩ [
  .defaulted "enabled" .truth (·.enabled) fun x s => { s with enabled := x },
  .defaulted "tau_max" .real (·.maxDepth) fun x s => { s with maxDepth := x }]

/-- Radiation pressure. -/
def RadiationSettings.codec : Codec α (RadiationSettings α) := .record .default [
  .defaulted "use_mars_rp" .truth (·.mars) fun x s => { s with mars := x },
  .defaulted "use_solar_rp" .truth (·.solar) fun x s => { s with solar := x },
  .defaulted "qpr" .real (·.efficiency) fun x s => { s with efficiency := x },
  .defaulted "beta_threshold" .real (·.threshold) fun x s => { s with threshold := x },
  .defaulted "chi_blow" BlowoutEfficiency.codec (·.blowoutEfficiency)
    fun x s => { s with blowoutEfficiency := x },
  .defaulted "beta_override" (.optional .real) (·.override) fun x s => { s with override := x },
  .defaulted "tau_gate" DepthGateSettings.codec (·.depthGate)
    fun x s => { s with depthGate := x }]

/-- The path of light. -/
def LineOfSight.codec : Codec α (LineOfSight α) := .tagged "mode" [
  .bare "none" .vertical (fun | .vertical => true | _ => false),
  .fielded "aspect_ratio" (0, 0) [
      .required "h_over_r" .real (·.1) fun x p => (x, p.2),
      .required "path_multiplier" .real (·.2) fun x p => (p.1, x)]
    (fun p => .slanted p.1 p.2) (fun | .slanted h m => some (h, m) | _ => none)]

/-- Which layer comes first. -/
def ShieldingOrder.codec : Codec α ShieldingOrder :=
  .named [("vapor_first", .vaporFirst), ("dust_first", .dustFirst)]

/-- Shielding. -/
def ShieldingSettings.codec : Codec α (ShieldingSettings α) := .record .default [
  .defaulted "enabled" .truth (·.enabled) fun x s => { s with enabled := x },
  .defaulted "order" ShieldingOrder.codec (·.order) fun x s => { s with order := x },
  .defaulted "kappa_vapor_m2_kg" .real (·.vaporOpacity) fun x s => { s with vaporOpacity := x },
  .defaulted "los" LineOfSight.codec (·.lineOfSight) fun x s => { s with lineOfSight := x }]

/-! ## Vapor -/

/-- The vapor pressure law that is asked for. -/
def RequestedModel.codec : Codec α RequestedModel := .named [
  ("tabulated", .fixed .tabulated),
  ("local-fit", .fixed .localFit),
  ("clausius-clapeyron", .fixed .clausiusClapeyron),
  ("auto", .automatic)]

/-- The coefficients of a law. -/
def ClausiusCoefficients.codec : Codec α (ClausiusCoefficients α) := .record ⟨0, 0⟩ [
  .required "a" .real (·.a) fun x c => { c with a := x },
  .required "b" .real (·.b) fun x c => { c with b := x }]

/-- The liquid branch. -/
def LiquidBranch.codec : Codec α (LiquidBranch α) := .record ⟨0, 0, 0⟩ [
  .required "a" .real (·.a) fun x c => { c with a := x },
  .required "b" .real (·.b) fun x c => { c with b := x },
  .required "t_switch_k" .real (·.switch) fun x c => { c with switch := x }]

/-- A row of a vapor pressure table. -/
def PressureRow.codec : Codec α (PressureRow α) := .record ⟨0, 0⟩ [
  .required "temperature_k" .real (·.temperature) fun x r => { r with temperature := x },
  .required "log10_p_pa" .real (·.log10Pressure) fun x r => { r with log10Pressure := x }]

/-- Sublimation and vapor pressure. -/
def SublimationSettings.codec : Codec α (SublimationSettings α) := .record .default [
  .defaulted "enabled" .truth (·.enabled) fun x s => { s with enabled := x },
  .defaulted "psat_model" RequestedModel.codec (·.model) fun x s => { s with model := x },
  .defaulted "clausius" ClausiusCoefficients.codec (·.clausius)
    fun x s => { s with clausius := x },
  .defaulted "liquid_branch" (.optional LiquidBranch.codec) (·.liquid)
    fun x s => { s with liquid := x },
  .defaulted "psat_table" (.list PressureRow.codec) (·.table) fun x s => { s with table := x },
  .defaulted "local_fit_window_k" .real (·.window) fun x s => { s with window := x },
  .defaulted "min_points_local_fit" .count (·.minPoints) fun x s => { s with minPoints := x },
  .defaulted "alpha_evap" .real (·.evaporation) fun x s => { s with evaporation := x },
  .defaulted "mu_kg_mol" .real (·.molarMass) fun x s => { s with molarMass := x },
  .defaulted "p_gas_pa" .real (·.gasPressure) fun x s => { s with gasPressure := x }]

/-! ## Blow-out -/

/-- The competing process. -/
def GateMode.codec : Codec α GateMode := .named [
  ("none", .none),
  ("sublimation_competition", .sublimation),
  ("collision_competition", .collision)]

/-- The phase that blow-out acts in. -/
def TargetPhase.codec : Codec α TargetPhase := .named [("solid_only", .solidOnly), ("any", .any)]

/-- The grains that blow-out acts on. -/
def BlowoutLayer.codec : Codec α BlowoutLayer :=
  .named [("surface_tau_le1", .skin), ("full_surface", .full)]

/-- The fraction removed in long steps. -/
def FastStepSettings.codec : Codec α (FastStepSettings α) := .record .default [
  .defaulted "enabled" .truth (·.enabled) fun x s => { s with enabled := x },
  .defaulted "threshold" .real (·.threshold) fun x s => { s with threshold := x },
  .defaulted "strict" .truth (·.strict) fun x s => { s with strict := x },
  .defaulted "strict_threshold" .real (·.strictThreshold)
    fun x s => { s with strictThreshold := x }]

/-- Blow-out. -/
def BlowoutSettings.codec : Codec α (BlowoutSettings α) := .record .default [
  .defaulted "enabled" .truth (·.enabled) fun x s => { s with enabled := x },
  .defaulted "gate_mode" GateMode.codec (·.gateMode) fun x s => { s with gateMode := x },
  .defaulted "target_phase" TargetPhase.codec (·.target) fun x s => { s with target := x },
  .defaulted "layer" BlowoutLayer.codec (·.layer) fun x s => { s with layer := x },
  .defaulted "fast_blowout" FastStepSettings.codec (·.fastStep)
    fun x s => { s with fastStep := x }]

/-! ## Supply -/

/-- A window of constant supply. -/
def SupplySegment.codec : Codec α (SupplySegment α) := .record ⟨0, 0, 0⟩ [
  .required "t_start_s" .real (·.start) fun x s => { s with start := x },
  .required "t_end_s" .real (·.stop) fun x s => { s with stop := x },
  .required "rate_kg_s" .real (·.rate) fun x s => { s with rate := x }]

/-- A row of a supply table. -/
def SupplyRow.codec : Codec α (SupplyRow α) := .record ⟨0, 0⟩ [
  .required "time_s" .real (·.time) fun x r => { r with time := x },
  .required "rate_kg_s" .real (·.rate) fun x r => { r with rate := x }]

/-- The supply rate over time. -/
def SupplyHistory.codec : Codec α (SupplyHistory α) := .tagged "mode" [
  .bare "none" .none (fun | .none => true | _ => false),
  .fielded "const" 0 [.required "rate_kg_s" .real id fun x _ => x]
    .constant (fun | .constant r => some r | _ => .none),
  .fielded "power_law" ⟨0, 0, 0, 1⟩ [
      .required "amplitude_kg_s" .real (·.amplitude) fun x l => { l with amplitude := x },
      .defaulted "t0_s" .real (·.onset) fun x l => { l with onset := x },
      .required "index" .real (·.index) fun x l => { l with index := x },
      .defaulted "epsilon_s" .real (·.softening) fun x l => { l with softening := x }]
    .powerLaw (fun | .powerLaw l => some l | _ => .none),
  .fielded "piecewise" [] [
      .required "segments" (.list SupplySegment.codec) id fun x _ => x]
    .piecewise (fun | .piecewise s => some s | _ => .none),
  .fielded "table" [] [
      .required "rows" (.list SupplyRow.codec) id fun x _ => x]
    .table (fun | .table r => some r | _ => .none)]

/-- External supply. -/
def SupplySettings.codec : Codec α (SupplySettings α) := .record .default [
  .defaulted "mode" SupplyHistory.codec (·.history) fun x s => { s with history := x },
  .defaulted "epsilon_mix" .real (·.mixing) fun x s => { s with mixing := x },
  .defaulted "jitter_sigma" .real (·.jitter) fun x s => { s with jitter := x },
  .defaulted "q_inj" .real (·.slope) fun x s => { s with slope := x }]

/-! ## Steps -/

/-- The step length. -/
def StepSize.codec : Codec α (StepSize α) := .tagged "mode" [
  .fielded "fixed" 0 [.required "seconds" .real id fun x _ => x]
    .fixed (fun | .fixed s => some s | .automatic => none),
  .bare "auto" .automatic (fun | .automatic => true | .fixed _ => false)]

/-- Steps and horizon. -/
def NumericsSettings.codec : Codec α (NumericsSettings α) := .record .default [
  .defaulted "t_end_years" (.optional .real) (·.years) fun x s => { s with years := x },
  .defaulted "t_end_orbits" (.optional .real) (·.orbits) fun x s => { s with orbits := x },
  .defaulted "dt" StepSize.codec (·.step) fun x s => { s with step := x },
  .defaulted "safety" .real (·.safety) fun x s => { s with safety := x },
  .defaulted "max_steps" (.optional .count) (·.maxSteps) fun x s => { s with maxSteps := x },
  .defaulted "mass_floor_fraction" .real (·.massFloor) fun x s => { s with massFloor := x }]

/-! ## The whole configuration -/

/-- Why a configuration text is refused. -/
inductive ConfigTextError (α : Type) where
  | unreadable (f : Fault)
  | rejected (e : ConfigError α)
  deriving DecidableEq, Repr

namespace RunConfig

/-- The configuration of a run. -/
def codec : Codec α (RunConfig α) := .record .default [
  .defaulted "geometry" GeometrySettings.codec (·.geometry) fun x c => { c with geometry := x },
  .defaulted "material" MaterialSettings.codec (·.material) fun x c => { c with material := x },
  .defaulted "sizes" SizeGridSettings.codec (·.sizes) fun x c => { c with sizes := x },
  .defaulted "initial" InitialSettings.codec (·.initial) fun x c => { c with initial := x },
  .defaulted "temperature" TemperatureSettings.codec (·.temperature)
    fun x c => { c with temperature := x },
  .defaulted "radiation" RadiationSettings.codec (·.radiation)
    fun x c => { c with radiation := x },
  .defaulted "phase" PhaseSettings.codec (·.phase) fun x c => { c with phase := x },
  .defaulted "sublimation" SublimationSettings.codec (·.sublimation)
    fun x c => { c with sublimation := x },
  .defaulted "collisions" CollisionSettings.codec (·.collisions)
    fun x c => { c with collisions := x },
  .defaulted "size_floor" SizeFloorSettings.codec (·.sizeFloor)
    fun x c => { c with sizeFloor := x },
  .defaulted "shielding" ShieldingSettings.codec (·.shielding)
    fun x c => { c with shielding := x },
  .defaulted "blowout" BlowoutSettings.codec (·.blowout) fun x c => { c with blowout := x },
  .defaulted "sinks" SinkSettings.codec (·.sinks) fun x c => { c with sinks := x },
  .defaulted "supply" SupplySettings.codec (·.supply) fun x c => { c with supply := x },
  .defaulted "numerics" NumericsSettings.codec (·.numerics) fun x c => { c with numerics := x },
  .defaulted "budget" BudgetSettings.codec (·.budget) fun x c => { c with budget := x },
  .defaulted "seed" .count (·.seed) fun x c => { c with seed := x }]

/-- Reads the text of a configuration document and checks what it says. -/
def read (text : String) : Except (ConfigTextError α) (RunConfig α) := do
  let config ← (codec.read text).mapError .unreadable
  config.validate.mapError .rejected
  return config

end RunConfig
end DebrisDisk
