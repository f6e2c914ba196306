import DebrisDisk.Grains.Withdrawal
import DebrisDisk.Timescale
import DebrisDisk.Vapor.Selection

/-!
# Sublimation

Grains lose mass from their surface at the Hertz-Knudsen-Langmuir flux, which goes with the excess
of the vapor pressure over the ambient one, and so shrink at a rate that does not depend on their
size. The loss of a bin is that of a grain at its centre.
-/

namespace DebrisDisk
open Scalar

/-- The rates of sublimation in one step. -/
structure SublimationRates (α : Type) where
  flux : α
  shrinkRate : α
  /-- The time to lose a grain at the floor. -/
  time : Timescale α
  deriving DecidableEq, Repr

variable {α : Type} [Scalar α]

/-- The molar gas constant in J/(mol K). -/
def gasConstant : α := 8.314462618

/-- The flux from a surface, zero unless the vapor pressure exceeds the ambient one. -/
def surfaceFlux (saturation ambient : Pressure α) (temperature : Temperature α)
    (evaporation molarMass : α) : α :=
  let excess := saturation.pascals - ambient.pascals
  let t := temperature.kelvin
  if 0 < excess ∧ 0 < t then
    evaporation * excess * sqrt (molarMass / (2.0 * pi * gasConstant * t))
  else 0

/-- The fraction of its mass that a grain loses when its radius shrinks by `ds`. -/
def shrinkLoss (size ds : α) : α :=
  if size ≤ 0 then 1
  else
    let left := fmax (1 - ds / size) 0
    1 - left * left * left

/-- The time to lose a grain of the given size. -/
def sublimationTimescale (size : Length α) (shrinkRate : α) : Timescale α :=
  if 0 < shrinkRate then .ofSeconds (size.metres / shrinkRate) else .infinite

/-- No sublimation. -/
def SublimationRates.inactive : SublimationRates α :=
  { flux := 0, shrinkRate := 0, time := .infinite }

/-- Shrinks the active grains for `dt`; gives the mass removed. -/
def SublimationRates.apply (r : SublimationRates α) (bins : SizeBins α) (dt : Time α) (floor : α) :
    SizeBins α × Option α :=
  if r.shrinkRate ≤ 0 then (bins, some 0)
  else bins.drain floor fun centre => shrinkLoss centre (r.shrinkRate * dt.seconds)

/-- The rates at a vapor pressure and grain temperature. -/
def SublimationSettings.rates (s : SublimationSettings α) (density : α)
    (pressure : PressureEvaluation α) (grains : Temperature α) (floor : Length α) :
    SublimationRates α :=
  if s.enabled then
    let flux := surfaceFlux pressure.pressure ⟨s.gasPressure⟩ grains s.evaporation s.molarMass
    let shrinkRate := flux / density
    { flux, shrinkRate, time := sublimationTimescale floor shrinkRate }
  else .inactive

end DebrisDisk
