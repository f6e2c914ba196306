import DebrisDisk.Run.State

/-!
# Events

A run announces what it does. Each `Event` has a level, a message and named values; readers that ask
for a level are shown the events up to it.
-/

namespace DebrisDisk

/-- Why a run ended. -/
inductive TerminationReason where
  | timeHorizon
  | stepLimit
  | massDepleted
  deriving DecidableEq, Repr

/-- The name of a reason in events. -/
def TerminationReason.label : TerminationReason → String
  | timeHorizon => "TimeHorizon"
  | stepLimit => "StepLimit"
  | massDepleted => "MassDepleted"

/-- The name of a phase in events. -/
def PhaseTag.label : PhaseTag → String
  | solid => "Solid"
  | vapor => "Vapor"

/-- How important an event is. -/
inductive Level where
  | warn
  | info
  | debug
  deriving DecidableEq, Repr

/-- The place of a level, the most important one first. -/
def Level.rank : Level → Nat
  | warn => 0
  | info => 1
  | debug => 2

/-- A value in an event. -/
inductive EventValue (α : Type) where
  | real (x : α)
  | skin (s : SkinColumn α)
  | count (n : Nat)
  | text (s : String)
  deriving DecidableEq, Repr

/-- What a run announces. -/
inductive Event (α : Type) where
  | started (radius : Length α) (initial : Mass α) (bins : Nat) (horizon : Time α)
  | solarIgnored
  | planned (dt horizon : Time α) (maxSteps : Nat)
  | evaluated (grains : Temperature α) (pathDepth fluxFactor : α) (skin : SkinColumn α)
      (eligible : α)
  | committed (step : Nat) (mass blowout kappa maxBeta : α)
  | lawSelected (model : PressureModel) (grains : Temperature α)
  | phaseChanged (phase : Option PhaseTag) (grains : Temperature α) (time : Time α)
  | terminated (reason : TerminationReason) (steps : Nat) (time : Time α) (mass maxError : α)
  | stepFailed (step : Nat) (source : StepError α)
  | finishFailed (source : SinkError)
  deriving DecidableEq, Repr

namespace Event
variable {α : Type}

/-- The level of an event. -/
def level : Event α → Level
  | started _ _ _ _ | planned _ _ _ | lawSelected _ _ | phaseChanged _ _ _
  | terminated _ _ _ _ _ => .info
  | evaluated _ _ _ _ _ | committed _ _ _ _ _ => .debug
  | solarIgnored | stepFailed _ _ | finishFailed _ => .warn

/-- The message of an event. -/
def message : Event α → String
  | started _ _ _ _ => "starting run"
  | solarIgnored => "solar radiation pressure is not modelled; use_solar_rp ignored"
  | planned _ _ _ => "planned time steps"
  | evaluated _ _ _ _ _ => "evaluated step"
  | committed _ _ _ _ _ => "committed step"
  | lawSelected _ _ => "vapor pressure model selected"
  | phaseChanged _ _ _ => "phase changed"
  | terminated _ _ _ _ _ => "run terminated"
  | stepFailed _ _ => "step failed"
  | finishFailed _ => "failed to finish diagnostics sink"

/-- The name of the phase in an event. -/
def phaseText : Option PhaseTag → String
  | some p => "Some(" ++ p.label ++ ")"
  | none => "None"

/-- The named values of an event; errors are not among them. -/
def fields [Scalar α] : Event α → List (String × EventValue α)
  | started radius initial bins horizon =>
    [("radius_m", .real radius.metres), ("initial_mass_kg", .real initial.kilograms),
      ("bins", .count bins), ("t_end_years", .real horizon.years)]
  | solarIgnored => []
  | planned dt horizon maxSteps =>
    [("dt_s", .real dt.seconds), ("t_end_s", .real horizon.seconds), ("max_steps", .count maxSteps)]
  | evaluated grains pathDepth fluxFactor skin eligible =>
    [("t_grain_k", .real grains.kelvin), ("tau_los", .real pathDepth),
      ("flux_factor", .real fluxFactor), ("sigma_tau1_kg_m2", .skin skin),
      ("eligible_fraction", .real eligible)]
  | committed step mass blowout kappa maxBeta =>
    [("step", .count step), ("mass_kg", .real mass), ("blowout_kg", .real blowout),
      ("kappa_m2_kg", .real kappa), ("max_beta", .real maxBeta)]
  | lawSelected model grains =>
    [("model", .text model.label), ("t_grain_k", .real grains.kelvin)]
  | phaseChanged phase grains time =>
    [("phase", .text (phaseText phase)), ("t_grain_k", .real grains.kelvin),
      ("time_years", .real time.years)]
  | terminated reason steps time mass maxError =>
    [("reason", .text reason.label), ("steps", .count steps), ("time_years", .real time.years),
      ("mass_kg", .real mass), ("max_error_percent", .real maxError)]
  | stepFailed step _ => [("step", .count step)]
  | finishFailed _ => []

end Event
end DebrisDisk
