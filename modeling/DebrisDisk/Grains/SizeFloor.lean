import DebrisDisk.Grains.SizeBins

/-!
# Size floor

Fragments below some size would need more surface energy than a collision supplies. For a fragment
slope between 3 and 4 the balance of kinetic and surface energy gives that size in closed form. The
floor of the active grid is the greater of it and the configured minimum.
-/

namespace DebrisDisk
open Scalar

/-- Parameters of the surface energy limit. -/
structure SurfaceEnergySettings (α : Type) where
  enabled : Bool
  /-- Surface energy per area. -/
  gamma : α
  /-- Fraction of the impact energy that goes into new surface. -/
  eta : α
  slope : α
  eccentricity : α
  /-- Mass of the largest fragment as a fraction of the target's. -/
  largestFragment : α
  /-- Size of the target; the top of the grid if absent. -/
  target : Option α
  deriving DecidableEq, Repr

/-- Which bound sets the floor. -/
inductive FloorSource where
  | configured
  | surfaceEnergy
  deriving DecidableEq, Repr

/-- The active lower bound of sizes. -/
structure SizeFloor (α : Type) where
  size : Length α
  source : FloorSource
  /-- The surface energy limit, zero when it does not apply. -/
  surfaceEnergySize : Length α
  deriving DecidableEq, Repr

variable {α : Type} [Scalar α]

/-- The limit is disabled unless a configuration enables it. -/
def SurfaceEnergySettings.default : SurfaceEnergySettings α where
  enabled := false
  gamma := 1
  eta := 0.1
  slope := 3.5
  eccentricity := 0.01
  largestFragment := 0.5
  target := none

/-- The impact speed on orbits of some eccentricity. -/
def relativeVelocity (kepler : Velocity α) (eccentricity : α) : Velocity α :=
  kepler / sqrt (1 - eccentricity)

/-- The smallest fragment size in metres, zero outside the domain of the balance. -/
def surfaceEnergyFloor (gamma eta slope density speed target largest : α) : α :=
  if 3.0 < slope ∧ slope < 4.0 ∧ 0 < gamma ∧ 0 < eta ∧ 0 < density ∧ 0 < speed ∧ 0 < target
      ∧ 0 < largest then
    let factor := 1 / target + eta * density * speed * speed / (24.0 * gamma)
    let rhs := (slope - 3.0) / (4.0 - slope) * factor * pow largest (4.0 - slope)
    if 0 < rhs ∧ isFinite rhs then
      let size := pow rhs (1 / (3.0 - slope))
      if isFinite size then clamp size 0 largest else 0
    else 0
  else 0

namespace SurfaceEnergySettings

/-- The limit for grains of some density at some orbital speed; targets are as large as the grid
unless configured. -/
def limit (s : SurfaceEnergySettings α) (density : α) (kepler : Velocity α) (top : Length α) : α :=
  if s.enabled then
    let target := s.target.getD top.metres
    surfaceEnergyFloor s.gamma s.eta s.slope density
      (relativeVelocity kepler s.eccentricity).metresPerSecond target
      (target * cbrt s.largestFragment)
  else 0

end SurfaceEnergySettings

/-- The greater of the configured minimum and the surface energy limit. -/
def SizeFloor.resolve (configured : Length α) (s : SurfaceEnergySettings α) (density : α)
    (kepler : Velocity α) (top : Length α) : SizeFloor α :=
  let limit := s.limit density kepler top
  if configured.metres < limit then
    { size := ⟨limit⟩, source := .surfaceEnergy, surfaceEnergySize := ⟨limit⟩ }
  else { size := configured, source := .configured, surfaceEnergySize := ⟨limit⟩ }

end DebrisDisk
