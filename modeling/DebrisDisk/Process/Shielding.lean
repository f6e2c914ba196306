import DebrisDisk.Scalar

/-!
# Shielding of the radiation field

Two layers weaken the flux that reaches the grains. Vapor absorbs exponentially. Dust lets through
the mean `Φ(τ) = (1 - exp (-τ)) / τ` of its column, and its uppermost part, the skin with an optical
depth of one along the line of sight, sees the flux that the layers in front of the dust leave.

The layers do not commute: vapor in front of the dust adds to the column that the dust is seen
through and dims the skin, vapor behind it does neither.
-/

namespace DebrisDisk
open Scalar

/-- Which layer comes first. -/
inductive ShieldingOrder where
  | vaporFirst
  | dustFirst
  deriving DecidableEq, Repr

/-- The path of light through the disk. -/
inductive LineOfSight (α : Type) where
  | vertical
  | slanted (heightOverRadius pathMultiplier : α)
  deriving DecidableEq, Repr

/-- Shielding in a run. -/
structure ShieldingSettings (α : Type) where
  enabled : Bool
  order : ShieldingOrder
  vaporOpacity : α
  lineOfSight : LineOfSight α
  deriving DecidableEq, Repr

/-- The surface density of the skin. -/
inductive SkinColumn (α : Type) where
  /-- The whole column belongs to the skin. -/
  | unbounded
  /-- The skin holds this surface density. -/
  | column (sigma : α)
  deriving DecidableEq, Repr

/-- The column that light passes through: the vertical optical depth, the opacity and the surface
density of its dust, and how much of the material is vapor. -/
structure ShieldingInputs (α : Type) where
  tau : α
  kappa : α
  sigma : α
  vaporFraction : α
  deriving DecidableEq, Repr

/-- The flux that is left, and the skin. The path factor is the ratio of the path to the vertical
one. -/
structure ShieldingOutcome (α : Type) where
  pathFactor : α
  pathDepth : α
  vaporDepth : α
  /-- The mean fraction of the flux in the column. -/
  fluxFactor : α
  /-- The fraction of the flux that reaches the skin. -/
  skinFluxFactor : α
  pathOpacity : α
  skin : SkinColumn α
  deriving DecidableEq, Repr

variable {α : Type} [Scalar α]

/-- The mean of the flux in a slab of some optical depth: one without dust, zero at infinite
depth. -/
def slabMeanFlux (tau : α) : α :=
  if ¬ 0 < tau then 1
  else if isFinite tau = false then 0
  else clamp (-(expm1 (-tau)) / tau) 0 1

namespace LineOfSight

/-- The ratio of the path to the vertical one, at least one; one for an unphysical disk. -/
def factor : LineOfSight α → α
  | vertical => 1
  | slanted h m =>
    if 0 < h ∧ isFinite h ∧ 0 < m ∧ isFinite m then fmax (m / h) 1 else 1

end LineOfSight

namespace ShieldingSettings

/-- Shielding by dust alone, seen vertically. -/
def default : ShieldingSettings α where
  enabled := true
  order := .vaporFirst
  vaporOpacity := 0
  lineOfSight := .vertical

/-- The optical depth of the vapor. -/
def vaporDepth (s : ShieldingSettings α) (i : ShieldingInputs α) : α :=
  fmax (s.vaporOpacity * i.vaporFraction * i.sigma) 0

/-- The skin of dust with some opacity along the path. -/
def skin (kappa : α) : SkinColumn α := if 0 < kappa then .column (1 / kappa) else .unbounded

/-- The flux that both layers leave. -/
def apply (s : ShieldingSettings α) (i : ShieldingInputs α) : ShieldingOutcome α :=
  let pathFactor := s.lineOfSight.factor
  let pathDepth := pathFactor * i.tau
  if s.enabled then
    let vaporDepth := s.vaporDepth i
    let pathOpacity := pathFactor * i.kappa
    match s.order with
    | .vaporFirst =>
      { pathFactor, pathDepth, vaporDepth, pathOpacity
        fluxFactor := exp (-vaporDepth) * slabMeanFlux (pathDepth + vaporDepth)
        skinFluxFactor := exp (-vaporDepth)
        skin := skin pathOpacity }
    | .dustFirst =>
      { pathFactor, pathDepth, vaporDepth, pathOpacity
        fluxFactor := slabMeanFlux pathDepth * exp (-vaporDepth)
        skinFluxFactor := 1
        skin := skin pathOpacity }
  else
    { pathFactor, pathDepth, vaporDepth := 0, pathOpacity := i.kappa, fluxFactor := 1
      skinFluxFactor := 1, skin := .unbounded }

end ShieldingSettings
end DebrisDisk
