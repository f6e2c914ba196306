import DebrisDisk.Decimal.Shortest
import DebrisDisk.Scalar

/-!
# Rejected configurations

Each constructor of `ConfigError` is one reason for which a configuration is rejected. The name of
the offending entry and the wording are functions of the reason.
-/

namespace DebrisDisk
open Decimal

/-- Where a supply history holds a rate. -/
inductive SupplyPart where
  | constant
  | amplitude
  | segment
  | row
  deriving DecidableEq, Repr

/-- Why a configuration is rejected. -/
inductive ConfigError (α : Type) where
  | orbit (radius : α)
  | widthFraction
  | grainDensity
  | sizeRange (low high : α)
  | noBins
  | initialMass (marsMasses : α)
  | initialKilograms (kilograms : α)
  | initialLowerSize
  | populationOutsideGrid
  | emptyTemperatureTable
  | initialTemperature (kelvin : α)
  | temperatureRows
  | temperatureTimes
  | slabLayer
  | linearLayer
  | absorptionEfficiency
  | pressureEfficiency
  | betaThreshold
  | blowoutEfficiency
  | betaOverride
  | gateDepth
  | phaseRamp (condense vaporize : α)
  | evaporationCoefficient
  | molarMass
  | gasPressure
  | fragmentSlope (q : α)
  | vaporOpacity
  | fastThreshold (threshold : α)
  | strictThreshold (threshold : α)
  | gasDrag
  | hydroEscape
  | supplyRate (part : SupplyPart) (rate : α)
  | supplySoftening
  | supplySegment
  | emptySupplyTable
  | supplyTimes
  | mixing
  | jitter
  | injectionSlope
  | shortPressureTable
  | pressureRows
  | pressureTemperatures
  | fitPoints
  | fitRows (needed given : Nat)
  | fitWindow
  | pressureTableMissing
  | fixedStep
  | safety
  | stepBudget
  | massFloor
  | twoHorizons
  | horizon (seconds : α)
  | tolerance
  deriving DecidableEq, Repr

namespace ConfigError
variable {α : Type}

/-- The entry of the configuration that a rejection points at. -/
def field : ConfigError α → String
  | orbit _ => "geometry.r_mars_radii"
  | widthFraction => "geometry.width_fraction"
  | grainDensity => "material.density_kg_m3"
  | sizeRange _ _ => "sizes"
  | noBins => "sizes.n_bins"
  | initialMass _ | initialKilograms _ => "initial.mass_total_mars_masses"
  | initialLowerSize | populationOutsideGrid => "initial.s_min_m"
  | emptyTemperatureTable | temperatureRows | temperatureTimes => "temperature.driver.rows"
  | initialTemperature _ | slabLayer | linearLayer => "temperature.driver"
  | absorptionEfficiency => "temperature.q_abs_mean"
  | pressureEfficiency => "radiation.qpr"
  | betaThreshold => "radiation.beta_threshold"
  | blowoutEfficiency => "radiation.chi_blow"
  | betaOverride => "radiation.beta_override"
  | gateDepth => "radiation.tau_gate.tau_max"
  | phaseRamp _ _ => "phase.t_vaporize_k"
  | evaporationCoefficient => "sublimation.alpha_evap"
  | molarMass => "sublimation.mu_kg_mol"
  | gasPressure => "sublimation.p_gas_pa"
  | fragmentSlope _ => "collisions.fragment_q"
  | vaporOpacity => "shielding.kappa_vapor_m2_kg"
  | fastThreshold _ => "blowout.fast_blowout.threshold"
  | strictThreshold _ => "blowout.fast_blowout.strict_threshold"
  | gasDrag => "sinks.gas_drag"
  | hydroEscape => "sinks.hydro_escape"
  | supplyRate .constant _ => "supply.rate_kg_s"
  | supplyRate .amplitude _ => "supply.amplitude_kg_s"
  | supplyRate .segment _ => "supply.segments.rate_kg_s"
  | supplyRate .row _ => "supply.rows.rate_kg_s"
  | supplySoftening => "supply.epsilon_s"
  | supplySegment => "supply.segments"
  | emptySupplyTable | supplyTimes => "supply.rows"
  | mixing => "supply.epsilon_mix"
  | jitter => "supply.jitter_sigma"
  | injectionSlope => "supply.q_inj"
  | shortPressureTable | pressureRows | pressureTemperatures | fitRows _ _
  | pressureTableMissing => "sublimation.psat_table"
  | fitPoints => "sublimation.min_points_local_fit"
  | fitWindow => "sublimation.local_fit_window_k"
  | fixedStep => "numerics.dt"
  | safety => "numerics.safety"
  | stepBudget => "numerics.max_steps"
  | massFloor => "numerics.mass_floor_fraction"
  | twoHorizons | horizon _ => "numerics.t_end_years"
  | tolerance => "budget.tolerance_percent"

/-- A number in the wording of a rejection. -/
def text [HasBinaryValue α] (x : α) : String := shortest (binaryValue x)

/-- What is wrong with the entry. -/
def reason [HasBinaryValue α] : ConfigError α → String
  | orbit r => "orbit must lie outside Mars, got r = " ++ text r ++ " m"
  | widthFraction => "width fraction must lie in (0, 1]"
  | grainDensity => "grain density must be positive"
  | sizeRange lo hi => "need 0 < s_min < s_max, got [" ++ text lo ++ ", " ++ text hi ++ "] m"
  | noBins => "need at least one bin"
  | initialMass m => "initial mass must be positive, got " ++ text m
  | initialKilograms m => "initial mass must be positive, got " ++ text m ++ " kg"
  | initialLowerSize => "initial lower size must lie below the grid maximum"
  | populationOutsideGrid => "initial population lies entirely outside the size grid"
  | emptyTemperatureTable | emptySupplyTable => "table has no rows"
  | initialTemperature t =>
    "initial temperature " ++ text t ++ " K outside [1000, 6500] K"
  | temperatureRows => "times must be finite and temperatures positive"
  | temperatureTimes | supplyTimes => "times must be strictly increasing"
  | slabLayer => "slab depth, density and heat capacity must be positive"
  | linearLayer => "hyodo cooling needs 0 <= floor_k < t0_k and a positive layer depth"
  | absorptionEfficiency => "absorption efficiency must be positive"
  | pressureEfficiency => "Q_pr must be positive"
  | betaThreshold => "β threshold must be positive"
  | blowoutEfficiency => "χ must be positive"
  | betaOverride => "β must be >= 0"
  | gateDepth => "τ_max must be positive"
  | phaseRamp c v =>
    "need 0 < T_condense < T_vaporize, got " ++ text c ++ " K and " ++ text v ++ " K"
  | evaporationCoefficient => "evaporation coefficient must lie in (0, 1]"
  | molarMass => "molar mass must be positive"
  | gasPressure => "gas pressure must be >= 0"
  | fragmentSlope q => "fragment slope must be finite and below 4, got " ++ text q
  | vaporOpacity => "vapor opacity must be >= 0"
  | fastThreshold x => "threshold must be finite and non-negative, got " ++ text x
  | strictThreshold x => "strict threshold must be finite and non-negative, got " ++ text x
  | gasDrag => "gas density and sound speed must be positive"
  | hydroEscape => "escape parameters must be finite with positive T_ref"
  | supplyRate _ x => "must be finite and >= 0, got " ++ text x
  | supplySoftening => "must be positive"
  | supplySegment => "segment end must follow its start"
  | mixing | jitter => "must be >= 0"
  | injectionSlope => "injection slope must be finite and below 4"
  | shortPressureTable => "table needs at least two rows"
  | pressureRows => "temperatures must be positive and pressures finite"
  | pressureTemperatures => "temperatures must be strictly increasing"
  | fitPoints => "a fit needs at least two points"
  | fitRows needed given =>
    "local fit needs " ++ toString needed ++ " rows, table has " ++ toString given
  | fitWindow => "window must be finite and >= 0"
  | pressureTableMissing => "psat_model `tabulated` requires a table"
  | fixedStep => "fixed step must be positive"
  | safety => "safety factor must lie in (0, 1]"
  | stepBudget => "need at least one step"
  | massFloor => "must lie in [0, 1)"
  | twoHorizons => "set either t_end_years or t_end_orbits, not both"
  | horizon s => "horizon must be positive and finite, got " ++ text s ++ " s"
  | tolerance => "tolerance must be positive"

/-- The wording of a rejection, from the entry and what is wrong with it. -/
def wording (field reason : String) : String :=
  "invalid configuration `" ++ field ++ "`: " ++ reason

/-- The wording of a rejection. -/
def message [HasBinaryValue α] (e : ConfigError α) : String := wording e.field e.reason

end ConfigError

/-- Rejects unless the condition holds. -/
def require {α : Type} (p : Prop) [Decidable p] (e : ConfigError α) :
    Except (ConfigError α) Unit :=
  if p then .ok () else .error e

@[simp] theorem require_eq_ok_iff {α : Type} {p : Prop} [Decidable p] {e : ConfigError α}
    {u : Unit} : require p e = .ok u ↔ p := by
  unfold require
  split <;> simp_all

end DebrisDisk
