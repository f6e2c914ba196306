import DebrisDisk.Timescale

/-!
# Blow-out in long steps

A step of length `dt` removes the fraction `dt / t` of what blows out in the time `t`. When the step
is no longer short against that time the fraction overshoots, so above a threshold of the ratio the
exact fraction `1 - exp (-dt / t)` is used instead.
-/

namespace DebrisDisk
open Scalar

/-- How the removed fraction follows from the ratio of step and blow-out time. -/
inductive FastStepRegime (α : Type) where
  /-- The ratio itself, at most one. -/
  | linear (ratio threshold : α)
  | exponential (ratio threshold : α)
  deriving DecidableEq, Repr

/-- The exact fraction in a run, which is used above a threshold. -/
structure FastStepSettings (α : Type) where
  enabled : Bool
  threshold : α
  strict : Bool
  strictThreshold : α
  deriving DecidableEq, Repr

variable {α : Type} [Scalar α]

/-- The fraction `1 - exp (-ratio)`, zero unless the ratio is positive. -/
def exactFraction (ratio : α) : α :=
  if 0 < ratio then clamp (-(expm1 (-ratio))) 0 1 else 0

namespace FastStepRegime

/-- The regime of a ratio. -/
def classify (ratio threshold : α) : FastStepRegime α :=
  if threshold < ratio then exponential ratio threshold else linear ratio threshold

omit [Scalar α] in
/-- The ratio. -/
def ratio : FastStepRegime α → α
  | linear r _ => r
  | exponential r _ => r

omit [Scalar α] in
/-- The exact fraction is in use. -/
def isEngaged : FastStepRegime α → Bool
  | linear _ _ => false
  | exponential _ _ => true

/-- The removed fraction. -/
def fraction : FastStepRegime α → α
  | linear r _ => clamp r 0 1
  | exponential r _ => exactFraction r

end FastStepRegime

namespace FastStepSettings

/-- The exact fraction from a ratio of one tenth. -/
def default : FastStepSettings α where
  enabled := true
  threshold := 0.1
  strict := false
  strictThreshold := 0.01

omit [Scalar α] in
/-- The threshold that applies. -/
def limit (s : FastStepSettings α) : α := if s.strict then s.strictThreshold else s.threshold

/-- The regime of a step of `dt` seconds; none when nothing blows out. -/
def regime? (s : FastStepSettings α) (dt : α) : Timescale α → Option (FastStepRegime α)
  | .finite t =>
    some (if s.enabled then .classify (dt / t) s.limit else .linear (dt / t) s.limit)
  | .infinite => none

/-- The fraction that a step of `dt` seconds removes. -/
def fraction (s : FastStepSettings α) (dt : α) (t : Timescale α) : α :=
  ((s.regime? dt t).map (·.fraction)).getD 0

end FastStepSettings
end DebrisDisk
