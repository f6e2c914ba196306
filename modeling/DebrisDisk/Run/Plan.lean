import DebrisDisk.Config

/-!
# Step plans

The step length is fixed by the configuration or is a fraction of the fastest timescale at the
start, and never exceeds the horizon. Without a configured budget the number of steps is bounded by
what the horizon needs, with a small margin. The last step lands on the horizon.
-/

namespace DebrisDisk
open Scalar

/-- The steps of a run. -/
structure StepPlan (α : Type) where
  dt : Time α
  horizon : Time α
  maxSteps : Nat
  deriving DecidableEq, Repr

variable {α : Type} [Scalar α]

namespace Timescale

/-- The shorter of a timescale and a bound in seconds. A process that does not act gives way to the
bound, and an undefined bound gives way to everything. -/
def bounded (t : Timescale α) (bound : α) : α :=
  match t with
  | finite s => fmin s bound
  | infinite => if isNaN bound then 1 / 0 else bound

end Timescale

namespace NumericsSettings

/-- The step length in seconds before a horizon. -/
def stepLength (n : NumericsSettings α) (horizon : α) (timescales : TimescaleSet α) : α :=
  match n.step with
  | .fixed seconds => fmin seconds horizon
  | .automatic => n.safety * timescales.fastest.bounded horizon

/-- The number of steps that reach the horizon with a margin of a twentieth, at least one. -/
def stepBudget (horizon dt : α) : Nat := toCount (fmax (ceil (horizon / dt * (1 + 0.05))) 1)

/-- The plan of a run whose first step has the given timescales. -/
def plan (n : NumericsSettings α) (horizon : Time α) (timescales : TimescaleSet α) : StepPlan α :=
  let dt := n.stepLength horizon.seconds timescales
  { dt := ⟨dt⟩, horizon, maxSteps := n.maxSteps.getD (stepBudget horizon.seconds dt) }

end NumericsSettings

namespace StepPlan

/-- The length of the step that starts at a time, and whether it lands on the horizon. A step that
falls short of the horizon by at most a billionth of its length lands there too. -/
def next (p : StepPlan α) (time : Time α) : Time α × Bool :=
  let remaining := p.horizon.seconds - time.seconds
  if remaining ≤ p.dt.seconds * (1 + 1e-9) then (⟨fmax remaining 0⟩, true) else (p.dt, false)

end StepPlan
end DebrisDisk
