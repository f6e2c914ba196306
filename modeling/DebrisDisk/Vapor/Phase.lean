import DebrisDisk.Vapor.Selection

/-!
# Phase of the disk

Between a condensation and a vaporisation temperature the vapor fraction rises linearly, and ambient
pressure and optical depth damp it. Below the ramp all is solid, above it all is vapor. The disk
counts as vapor from a vapor fraction of one half.
-/

namespace DebrisDisk
open Scalar

/-- The state that dominates the disk. -/
inductive PhaseTag where
  | solid
  | vapor
  deriving DecidableEq, Repr

/-- Phase changes in a run. All is solid up to the temperature `condense`, and all is vapor from
`vaporize` on. -/
structure PhaseSettings (α : Type) where
  /-- Phase changes are followed; otherwise all stays solid. -/
  enabled : Bool
  condense : α
  vaporize : α
  /-- The pressure in bar that halves the vapor fraction, if positive. -/
  pressureScale : α
  /-- The optical depth that halves the vapor fraction, if positive. -/
  depthScale : α
  deriving DecidableEq, Repr

/-- The phase of the disk in one step. -/
structure PhaseState (α : Type) where
  tag : PhaseTag
  model : PressureModel
  vaporFraction : α
  source : TemperatureSource
  grainTemperature : Temperature α
  pressure : Pressure α
  deriving DecidableEq, Repr

variable {α : Type} [Scalar α]

namespace PhaseSettings

/-- A ramp from 1700 K to 2000 K. -/
def default : PhaseSettings α where
  enabled := true
  condense := 1700.0
  vaporize := 2000.0
  pressureScale := 1
  depthScale := 1

/-- The upper end of the ramp, at least one kelvin above the lower. -/
def top (s : PhaseSettings α) : α := fmax s.vaporize (s.condense + 1)

/-- A fraction damped by a quantity on some scale; nothing happens without a scale or for an
undefined quantity. -/
def damped (fraction x scale : α) : α :=
  if isFinite x ∧ 0 < scale then fraction / (1 + fmax x 0 / scale) else fraction

/-- The vapor fraction at a temperature in kelvin. -/
def vaporFraction (s : PhaseSettings α) (t : α) (ambient : Pressure α) (tau : α) : α :=
  let fraction :=
    if t ≤ s.condense then 0
    else if s.top ≤ t then 1
    else
      let ramp := (t - s.condense) / (s.top - s.condense)
      damped (damped ramp ambient.bars s.pressureScale) tau s.depthScale
  clamp fraction 0 1

/-- The vapor fraction from which the disk counts as vapor. -/
def vaporShare : α := 0.5

/-- The phase and the vapor pressure of grains at a temperature, for an optical depth along the line
of sight. The source of the temperature is only passed on. -/
def evaluate (s : PhaseSettings α) (selector : PressureSelector α) (ambient : Pressure α)
    (grains : Temperature α) (source : TemperatureSource) (tau : α) :
    Except (StepError α) (PhaseState α × PressureEvaluation α) :=
  let t := grains.kelvin
  if isFinite t ∧ 0 < t then do
    let pressure ← selector.select grains
    let fraction := if s.enabled then s.vaporFraction t ambient tau else 0
    if isFinite fraction then
      return ({
        tag := if vaporShare ≤ fraction then .vapor else .solid
        model := pressure.model
        vaporFraction := fraction
        source
        grainTemperature := grains
        pressure := pressure.pressure }, pressure)
    else throw (.phaseUnresolvable t (some fraction))
  else .error (.phaseUnresolvable t none)

end PhaseSettings
end DebrisDisk
