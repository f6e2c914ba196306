import DebrisDisk.Surface
import DebrisDisk.Vapor.PressureLaw

/-!
# Failed steps

A step fails for a reason that ends the run: the mass budget does not close, the phase or the vapor
pressure cannot be resolved, there is no surface temperature, or the receiver of the diagnostics
refuses. A run fails because its configuration is rejected or because a step failed.
-/

namespace DebrisDisk
open Decimal

/-- Why a diagnostics sink refuses. -/
inductive SinkError where
  | disconnected
  | finished
  deriving DecidableEq, Repr

/-- The wording of a sink error. -/
def SinkError.message : SinkError → String
  | disconnected => "diagnostics receiver disconnected"
  | finished => "diagnostics sink already finished"

/-- Why a step fails. -/
inductive StepError (α : Type) where
  | budgetViolation (errorPercent tolerancePercent discrepancy : α)
  /-- There is no phase at the temperature; the vapor fraction is absent when it is undefined. -/
  | phaseUnresolvable (temperature : α) (vaporFraction : Option α)
  | modelDomainExhausted (model : PressureModel) (temperature : α)
  | temperature (e : TemperatureError α)
  | sink (e : SinkError)
  deriving DecidableEq, Repr

/-- The wording of a step error. -/
def StepError.message {α : Type} [HasBinaryValue α] : StepError α → String
  | budgetViolation error tolerance discrepancy =>
    "mass budget violated: error " ++ fixed 6 (binaryValue error) ++ "% exceeds tolerance "
      ++ shortest (binaryValue tolerance) ++ "% (discrepancy "
      ++ scientific 6 (binaryValue discrepancy) ++ " kg)"
  | phaseUnresolvable t f =>
    let fraction := match f with
      | some x => shortest (binaryValue x)
      | none => shortest .nan
    "phase unresolvable at T = " ++ shortest (binaryValue t) ++ " K (vapor fraction " ++ fraction
      ++ ")"
  | modelDomainExhausted model t =>
    model.label ++ " vapor pressure model has no valid domain at T = "
      ++ shortest (binaryValue t) ++ " K"
  | temperature e => e.message
  | sink e => e.message

/-- Why a run fails. -/
inductive RunError (α : Type) where
  | config (e : ConfigError α)
  | step (step : Nat) (source : StepError α)
  /-- A step failed before. -/
  | halted (step : Nat)
  deriving DecidableEq, Repr

namespace RunError
variable {α : Type}

/-- The wording of a run error. -/
def message [HasBinaryValue α] : RunError α → String
  | config e => e.message
  | step n source => "step " ++ toString n ++ " failed: " ++ source.message
  | halted n => "integrator halted after step " ++ toString n ++ " failed"

/-- The number of the step that failed. -/
def step? : RunError α → Option Nat
  | config _ => none
  | step n _ => some n
  | halted n => some n

end RunError
end DebrisDisk
