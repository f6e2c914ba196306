import DebrisDisk.Config
import DebrisDisk.Run.Event

/-!
# Evaluation of a step

Before any mass moves, every model is evaluated against the committed state: the temperatures, the
phase, the rates of all processes, the shielding of the radiation, and from these the competing
timescales and the mass that blow-out acts on. An evaluation changes nothing.
-/

namespace DebrisDisk
open Scalar

/-- What follows from the committed state. The surface is that of Mars, and the optical depth that
of the active grains. -/
structure Evaluation (α : Type) where
  surface : Temperature α
  grains : Temperature α
  phase : PhaseState α
  sublimation : SublimationRates α
  /-- The force ratio at each bin centre. -/
  betas : List α
  collisions : OpticalDepthRegime α
  floor : SizeFloor α
  active : ActiveSummary α
  activeSigma : α
  tau : α
  shielding : ShieldingOutcome α
  blowoutTimes : List (Timescale α)
  /-- The fraction of the active mass that blow-out acts on. -/
  eligibleFraction : α
  /-- The mass of each bin that blow-out acts on. -/
  eligible : List α
  depthGated : Bool
  timescales : TimescaleSet α
  deriving DecidableEq, Repr

variable {α : Type} [Scalar α]

namespace RunConfig

/-- The annulus. -/
def disk (c : RunConfig α) : DiskGeometry α := c.geometry.disk

/-- The size floor of a grid. -/
def sizeFloorOf (c : RunConfig α) (bins : SizeBins α) : SizeFloor α :=
  .resolve ⟨c.sizes.smallest⟩ c.sizeFloor.surfaceEnergy c.material.density
    c.disk.keplerVelocity bins.maxSize

/-- The temperatures at a time; a surface temperature that is not positive is no temperature. -/
def surfaceAt (c : RunConfig α) (time : Time α) : Except (StepError α) (Temperature α) := do
  let surface ← (c.temperature.history.temperatureAt time).mapError .temperature
  if isFinite surface.kelvin ∧ 0 < surface.kelvin then return surface
  else throw (.temperature (.nonFinite time.seconds))

/-- The temperature of grains under a surface. -/
def grainsUnder (c : RunConfig α) (surface : Temperature α) : Temperature α :=
  grainTemperature surface c.disk.radius c.temperature.absorption

/-- The vertical optical depth from which the collisional regime follows: that of the grains above
the committed floor. -/
def committedTau (c : RunConfig α) (state : DiskState α) : α :=
  let committed := state.bins.activeSummary state.floor.metres
  committed.kappa * committed.mass / c.disk.area

/-- Evaluates every model against a committed state. -/
def evaluate (c : RunConfig α) (selector : PressureSelector α) (state : DiskState α) :
    Except (StepError α) (Evaluation α) := do
  let bins := state.bins
  let omega := c.disk.omega
  let density := c.material.density
  let surface ← c.surfaceAt state.time
  let grains := c.grainsUnder surface
  let (phase, pressure) ← c.phase.evaluate selector ⟨c.sublimation.gasPressure⟩ grains
    c.temperature.history.source state.pathDepth
  let sublimation := c.sublimation.rates density pressure grains state.floor
  let betas := c.radiation.binBetas density bins.centres surface
  let collisions := OpticalDepthRegime.classify (c.committedTau state)
  let floor := c.sizeFloorOf bins
  let active := bins.activeSummary floor.size.metres
  let activeSigma := active.mass / c.disk.area
  let tau := active.kappa * activeSigma
  let shielding := c.shielding.apply
    { tau, kappa := active.kappa, sigma := activeSigma, vaporFraction := phase.vaporFraction }
  let blowoutTimes := (c.radiation.binBlowout betas shielding.skinFluxFactor omega).map (·.time)
  let depthGated := c.radiation.depthGate.enabled
    && decide (c.radiation.depthGate.maxDepth < shielding.pathDepth)
  let eligibleFraction := if depthGated then 0
    else c.blowout.eligibleFraction phase.tag shielding.skin activeSigma
  let eligible := (bins.activeMasses floor.size.metres).map (· * eligibleFraction)
  return {
    surface, grains, phase, sublimation, betas, collisions, floor, active, activeSigma, tau
    shielding, blowoutTimes, eligibleFraction, eligible, depthGated
    timescales := {
      blow := aggregateTimescale blowoutTimes eligible
      solid := sublimation.time
      coll := c.collisions.timescale collisions omega
      drag := c.sinks.gasDrag.timescale density floor.size.metres
      escape := c.sinks.hydroEscape.timescaleIn phase.tag grains phase.vaporFraction } }

end RunConfig

/-- The announcement of an evaluation. -/
def Evaluation.event (e : Evaluation α) : Event α :=
  .evaluated e.grains e.shielding.pathDepth e.shielding.fluxFactor e.shielding.skin
    e.eligibleFraction

end DebrisDisk
