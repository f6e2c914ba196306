import DebrisDisk.Quantity

/-!
# Disk geometry

The disk is a single annulus around Mars. Its radius sets the orbital frequency, and its width the
area over which the mass is spread.
-/

namespace DebrisDisk
open Scalar

/-- The gravitational constant in m³/(kg s²). -/
def gravitation {α : Type} [Scalar α] : α := 6.67430e-11

/-- The annulus that stands for the whole disk. -/
structure DiskGeometry (α : Type) where
  radius : Length α
  width : Length α
  deriving DecidableEq, Repr

namespace DiskGeometry
variable {α : Type} [Scalar α]

/-- The Keplerian angular velocity, the root of `G M / r³`. -/
def omega (g : DiskGeometry α) : AngularVelocity α :=
  let r := g.radius.metres
  ⟨sqrt (gravitation * marsMass / (r * r * r))⟩

/-- The Keplerian orbital speed. -/
def keplerVelocity (g : DiskGeometry α) : Velocity α :=
  ⟨g.omega.radiansPerSecond * g.radius.metres⟩

/-- The area of the annulus in square metres. -/
def area (g : DiskGeometry α) : α := 2.0 * pi * g.radius.metres * g.width.metres

/-- A mass spread over the annulus. -/
def surfaceDensity (g : DiskGeometry α) (mass : Mass α) : SurfaceDensity α :=
  .ofMassOverArea mass g.area

end DiskGeometry
end DebrisDisk
