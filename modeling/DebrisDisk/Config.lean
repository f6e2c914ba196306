import DebrisDisk.Blowout.Gate
import DebrisDisk.Grains.SizeFloor
import DebrisDisk.Process.Collision
import DebrisDisk.Process.GasLoss
import DebrisDisk.Process.Radiation
import DebrisDisk.Process.Sublimation
import DebrisDisk.Process.Supply

/-!
# Run configuration

A run is described by one `RunConfig`. Every section has defaults, so a configuration names only
what differs from the baseline run: a disk of `10⁻⁵` Mars masses at two Mars radii under a surface
of 4000 K, followed for two years.

## Main definitions

* `RunConfig` and its sections.
* `NumericsSettings.horizon`: the time at which a run ends.
* `RunConfig.validate`: every check that comes before a run.
-/

namespace DebrisDisk
open Scalar

/-- The orbit of the disk. -/
structure GeometrySettings (α : Type) where
  marsRadii : α
  /-- The orbital radius in metres, in place of the other if present. -/
  metres : Option α
  widthFraction : α
  deriving DecidableEq, Repr

/-- The material of the grains. -/
structure MaterialSettings (α : Type) where
  density : α
  deriving DecidableEq, Repr

/-- The grid of grain sizes. -/
structure SizeGridSettings (α : Type) where
  smallest : α
  greatest : α
  bins : Nat
  deriving DecidableEq, Repr

/-- The initial population. -/
structure InitialSettings (α : Type) where
  marsMasses : α
  slope : α
  /-- The smallest size; that of the grid if absent. -/
  smallest : Option α
  deriving DecidableEq, Repr

/-- The heating of the grains. -/
structure TemperatureSettings (α : Type) where
  history : SurfaceHistory α
  absorption : α
  deriving DecidableEq, Repr

/-- The size floor beside the grid's minimum. -/
structure SizeFloorSettings (α : Type) where
  surfaceEnergy : SurfaceEnergySettings α
  deriving DecidableEq, Repr

/-- The loss with the gas. -/
structure SinkSettings (α : Type) where
  gasDrag : GasDragSettings α
  hydroEscape : HydroEscapeSettings α
  deriving DecidableEq, Repr

/-- How the step length is chosen. -/
inductive StepSize (α : Type) where
  | fixed (seconds : α)
  /-- A fraction of the fastest timescale at the start. -/
  | automatic
  deriving DecidableEq, Repr

/-- Steps and horizon. Automatic steps take the `safety` fraction of the fastest timescale. -/
structure NumericsSettings (α : Type) where
  years : Option α
  orbits : Option α
  step : StepSize α
  safety : α
  /-- The greatest number of steps; derived from the horizon if absent. -/
  maxSteps : Option Nat
  /-- A run ends once the mass is below this fraction of the initial mass. -/
  massFloor : α
  deriving DecidableEq, Repr

/-- The mass ledger, with the tolerated error in percent of the initial mass. -/
structure BudgetSettings (α : Type) where
  tolerance : α
  deriving DecidableEq, Repr

/-- The description of one run. -/
structure RunConfig (α : Type) where
  geometry : GeometrySettings α
  material : MaterialSettings α
  sizes : SizeGridSettings α
  initial : InitialSettings α
  temperature : TemperatureSettings α
  radiation : RadiationSettings α
  phase : PhaseSettings α
  sublimation : SublimationSettings α
  collisions : CollisionSettings α
  sizeFloor : SizeFloorSettings α
  shielding : ShieldingSettings α
  blowout : BlowoutSettings α
  sinks : SinkSettings α
  supply : SupplySettings α
  numerics : NumericsSettings α
  budget : BudgetSettings α
  seed : Nat
  deriving DecidableEq, Repr

variable {α : Type} [Scalar α]

/-! ## The baseline run -/

/-- An annulus at two Mars radii. -/
def GeometrySettings.default : GeometrySettings α :=
  { marsRadii := 2.0, metres := none, widthFraction := 0.1 }

/-- Silicate. -/
def MaterialSettings.default : MaterialSettings α := { density := 3000.0 }

/-- Forty bins from a tenth of a micron to three metres. -/
def SizeGridSettings.default : SizeGridSettings α :=
  { smallest := 1.0e-7, greatest := 3.0, bins := 40 }

/-- The population of a steady cascade. -/
def InitialSettings.default : InitialSettings α :=
  { marsMasses := 1.0e-5, slope := 3.5, smallest := none }

/-- A surface of 4000 K. -/
def SurfaceHistory.default : SurfaceHistory α := .constant 4000.0

/-- A surface of 4000 K and grey grains. -/
def TemperatureSettings.default : TemperatureSettings α :=
  { history := .default, absorption := 0.4 }

/-- No surface energy limit. -/
def SizeFloorSettings.default : SizeFloorSettings α := { surfaceEnergy := .default }

/-- No loss with the gas. -/
def SinkSettings.default : SinkSettings α := { gasDrag := .default, hydroEscape := .default }

/-- Steps of 60000 seconds. -/
def StepSize.default : StepSize α := .fixed 60000.0

/-- Fixed steps up to the default horizon. -/
def NumericsSettings.default : NumericsSettings α where
  years := none
  orbits := none
  step := .default
  safety := 0.1
  maxSteps := none
  massFloor := 1e-12

/-- Half a percent. -/
def BudgetSettings.default : BudgetSettings α := { tolerance := 0.5 }

/-- The baseline run. -/
def RunConfig.default : RunConfig α where
  geometry := .default
  material := .default
  sizes := .default
  initial := .default
  temperature := .default
  radiation := .default
  phase := .default
  sublimation := .default
  collisions := .default
  sizeFloor := .default
  shielding := .default
  blowout := .default
  sinks := .default
  supply := .default
  numerics := .default
  budget := .default
  seed := 12345

/-! ## Derived quantities -/

namespace GeometrySettings

/-- The orbital radius. -/
def radius (g : GeometrySettings α) : Length α :=
  match g.metres with
  | some r => ⟨r⟩
  | none => .ofMarsRadii g.marsRadii

/-- The width of the annulus. -/
def width (g : GeometrySettings α) : Length α := g.radius * g.widthFraction

/-- The annulus. -/
def disk (g : GeometrySettings α) : DiskGeometry α := { radius := g.radius, width := g.width }

end GeometrySettings

namespace NumericsSettings

/-- The horizon in years of a run that gives none. -/
def defaultYears : α := 2.0

/-- The time at which a run ends; orbits are counted at the given angular velocity. -/
def horizon (n : NumericsSettings α) (omega : AngularVelocity α) :
    Except (ConfigError α) (Time α) := do
  let t ← match n.years, n.orbits with
    | some _, some _ => .error .twoHorizons
    | some years, none => .ok (Time.ofYears years)
    | none, some orbits => .ok (omega.period * orbits)
    | none, none => .ok (Time.ofYears defaultYears)
  require (isPositive t.seconds) (.horizon t.seconds)
  return t

end NumericsSettings

/-! ## Validation -/

/-- Checks an entry only when it is present. -/
def requireOf {β : Type} (x : Option β) (p : β → Prop) [DecidablePred p] (e : ConfigError α) :
    Except (ConfigError α) Unit :=
  match x with
  | none => .ok ()
  | some y => require (p y) e

namespace GeometrySettings

/-- Checks the orbit. -/
def validate (g : GeometrySettings α) : Except (ConfigError α) Unit := do
  require (marsRadius < g.radius.metres ∧ isFinite g.radius.metres) (.orbit g.radius.metres)
  require (isPositive g.widthFraction ∧ g.widthFraction ≤ 1) .widthFraction

end GeometrySettings

namespace SizeGridSettings

/-- Checks the grid of grain sizes. -/
def validate (s : SizeGridSettings α) : Except (ConfigError α) Unit := do
  require (isPositive s.smallest ∧ s.smallest < s.greatest) (.sizeRange s.smallest s.greatest)
  require (0 < s.bins) .noBins

end SizeGridSettings

namespace InitialSettings

/-- Checks the initial population against the top of the grid. -/
def validate (s : InitialSettings α) (greatest : α) : Except (ConfigError α) Unit := do
  require (isPositive s.marsMasses) (.initialMass s.marsMasses)
  requireOf s.smallest (fun x => isPositive x ∧ x < greatest) .initialLowerSize

end InitialSettings

namespace RadiationSettings

/-- Checks radiation pressure. -/
def validate (s : RadiationSettings α) : Except (ConfigError α) Unit := do
  require (isPositive s.efficiency) .pressureEfficiency
  require (isPositive s.threshold) .betaThreshold
  match s.blowoutEfficiency with
  | .fixed chi => require (isPositive chi) .blowoutEfficiency
  | .automatic => .ok ()
  requireOf s.override (isNonneg ·) .betaOverride
  require (isPositive s.depthGate.maxDepth) .gateDepth

end RadiationSettings

namespace SublimationSettings

/-- Checks the coefficients of sublimation; the vapor pressure law is checked when it is built. -/
def validate (s : SublimationSettings α) : Except (ConfigError α) Unit := do
  require (isPositive s.evaporation ∧ s.evaporation ≤ 1) .evaporationCoefficient
  require (isPositive s.molarMass) .molarMass
  require (isNonneg s.gasPressure) .gasPressure

end SublimationSettings

namespace FastStepSettings

/-- Checks both thresholds. -/
def validate (s : FastStepSettings α) : Except (ConfigError α) Unit := do
  require (isNonneg s.threshold) (.fastThreshold s.threshold)
  require (isNonneg s.strictThreshold) (.strictThreshold s.strictThreshold)

end FastStepSettings

namespace SinkSettings

/-- Checks the processes that are followed. -/
def validate (s : SinkSettings α) : Except (ConfigError α) Unit := do
  let drag := s.gasDrag
  let escape := s.hydroEscape
  require (drag.enabled → isPositive drag.gasDensity ∧ isPositive drag.soundSpeed) .gasDrag
  require (escape.enabled → isNonneg escape.strength ∧ isPositive escape.reference
    ∧ isFinite escape.exponent ∧ isNonneg escape.fractionFloor) .hydroEscape

end SinkSettings

namespace SupplySettings

/-- Checks the supply. -/
def validate (s : SupplySettings α) : Except (ConfigError α) Unit := do
  s.history.validate
  require (isNonneg s.mixing) .mixing
  require (isNonneg s.jitter) .jitter
  require (s.slope < 4.0 ∧ isFinite s.slope) .injectionSlope

end SupplySettings

namespace NumericsSettings

/-- Checks steps and horizon for a disk with some angular velocity. -/
def validate (s : NumericsSettings α) (omega : AngularVelocity α) :
    Except (ConfigError α) Unit := do
  match s.step with
  | .fixed seconds => require (isPositive seconds) .fixedStep
  | .automatic => .ok ()
  require (isPositive s.safety ∧ s.safety ≤ 1) .safety
  requireOf s.maxSteps (0 < ·) .stepBudget
  require (isNonneg s.massFloor ∧ s.massFloor < 1) .massFloor
  let _ ← s.horizon omega

end NumericsSettings

namespace RunConfig

/-- Every check that comes before a run, section by section. -/
def validate (c : RunConfig α) : Except (ConfigError α) Unit := do
  c.geometry.validate
  require (isPositive c.material.density) .grainDensity
  c.sizes.validate
  c.initial.validate c.sizes.greatest
  c.temperature.history.validate
  require (isPositive c.temperature.absorption) .absorptionEfficiency
  c.radiation.validate
  require (isPositive c.phase.condense ∧ c.phase.condense < c.phase.vaporize)
    (.phaseRamp c.phase.condense c.phase.vaporize)
  c.sublimation.validate
  require (c.collisions.slope < 4.0 ∧ isFinite c.collisions.slope)
    (.fragmentSlope c.collisions.slope)
  require (isNonneg c.shielding.vaporOpacity) .vaporOpacity
  c.blowout.fastStep.validate
  c.sinks.validate
  c.supply.validate
  c.numerics.validate c.geometry.disk.omega
  require (isPositive c.budget.tolerance) .tolerance

end RunConfig
end DebrisDisk
