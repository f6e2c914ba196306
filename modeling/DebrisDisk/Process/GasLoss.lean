import DebrisDisk.Grains.Withdrawal
import DebrisDisk.Timescale
import DebrisDisk.Vapor.Phase

/-!
# Loss with the gas

Two auxiliary processes remove mass through the gas. Small grains couple to the gas within their
stopping time and drift away with it. A disk of vapor escapes hydrodynamically, the faster the
hotter it is.
-/

namespace DebrisDisk
open Scalar

/-- Gas drag in a run. -/
structure GasDragSettings (α : Type) where
  enabled : Bool
  gasDensity : α
  soundSpeed : α
  deriving DecidableEq, Repr

/-- Hydrodynamic escape in a run. -/
structure HydroEscapeSettings (α : Type) where
  enabled : Bool
  /-- The rate at the reference temperature. -/
  strength : α
  reference : α
  exponent : α
  /-- The least vapor fraction that counts. -/
  fractionFloor : α
  deriving DecidableEq, Repr

variable {α : Type} [Scalar α]

/-- The stopping time of a grain in gas. -/
def gasDragTimescale (size density gasDensity soundSpeed : α) : Timescale α :=
  .ofSeconds (density * size / (gasDensity * soundSpeed))

namespace GasDragSettings

/-- No gas drag. -/
def default : GasDragSettings α := { enabled := false, gasDensity := 1e-6, soundSpeed := 500.0 }

/-- The stopping time of a grain size. -/
def timescale (s : GasDragSettings α) (density size : α) : Timescale α :=
  if s.enabled then gasDragTimescale size density s.gasDensity s.soundSpeed else .infinite

/-- Drags the active grains along for `dt`; gives the mass removed. -/
def apply (s : GasDragSettings α) (density : α) (bins : SizeBins α) (dt : Time α) (floor : α) :
    SizeBins α × Option α :=
  if s.enabled then
    bins.drain floor fun centre => (s.timescale density centre).decayFraction dt.seconds
  else (bins, some 0)

end GasDragSettings

namespace HydroEscapeSettings

/-- No escape. -/
def default : HydroEscapeSettings α where
  enabled := false
  strength := 1e-7
  reference := 2000.0
  exponent := 2.0
  fractionFloor := 1e-3

/-- The power of the temperature that scales the rate, one where the power is not finite. -/
def temperatureFactor (s : HydroEscapeSettings α) (temperature : Temperature α) : α :=
  let factor := pow (fmax temperature.kelvin 1 / fmax s.reference 1) s.exponent
  if isFinite factor then factor else 1

/-- The time to escape at a temperature and vapor fraction, whatever the phase. -/
def timescale (s : HydroEscapeSettings α) (temperature : Temperature α) (fraction : α) :
    Timescale α :=
  let strength := fmax s.strength 0
  if s.enabled = false ∨ strength ≤ 0 ∨ fraction ≤ 0 then .infinite
  else .ofRate (strength * s.temperatureFactor temperature * fmax fraction s.fractionFloor)

/-- The time to escape; only a disk of vapor escapes. -/
def timescaleIn (s : HydroEscapeSettings α) (phase : PhaseTag) (temperature : Temperature α)
    (fraction : α) : Timescale α :=
  match phase with
  | .vapor => s.timescale temperature fraction
  | .solid => .infinite

end HydroEscapeSettings

/-- Lets the active mass escape for `dt`; gives the mass removed. -/
def SizeBins.escape (bins : SizeBins α) (time : Timescale α) (dt : Time α) (floor : α) :
    SizeBins α × Option α :=
  let fraction := time.decayFraction dt.seconds
  if fraction ≤ 0 then (bins, some 0) else bins.drain floor fun _ => fraction

end DebrisDisk
