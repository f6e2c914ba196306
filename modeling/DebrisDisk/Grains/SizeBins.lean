import DebrisDisk.Config.Error
import DebrisDisk.Quantity

/-!
# Size bins

The grains of the disk are sorted into bins of equal logarithmic width. Each bin carries a mass, and
the solid mass of the disk is always the sum over the bins. For a number distribution `s ^ (-q)` the
mass between two sizes goes as the integral of `s ^ (3 - q)`.

Only the part of the grid above a floor is active. A bin that the floor cuts counts with the share
of its logarithmic width that lies above.

## Main definitions

* `SizeBins`, `SizeBins.logSpaced`, `SizeBins.withPowerLaw`.
* `SizeBins.powerLawWeights`: a power law spread over the bins above a floor.
* `SizeBins.activeWeights`, `SizeBins.activeSummary`, `SizeBins.retireBelow`.
-/

namespace DebrisDisk
open Scalar
variable {α : Type} [Scalar α]

/-- The integral of `s ^ (3 - q)` from `a` to `b`, zero for an empty interval. -/
def powerLawIntegral (a b q : α) : α :=
  if b ≤ a then 0
  else
    let k := 4.0 - q
    if magnitude k < 1e-12 then ln (b / a) else (pow b k - pow a k) / k

/-- The share of the logarithmic width from `lo` to `hi` that lies above the floor. -/
def activeWeight (lo hi floor : α) : α :=
  if hi ≤ floor then 0 else if floor ≤ lo then 1 else ln (hi / floor) / ln (hi / lo)

/-- Mass and opacity of the active part of the grid. -/
structure ActiveSummary (α : Type) where
  mass : α
  kappa : α
  deriving DecidableEq, Repr

/-- The mass of the disk by grain size, and the density of the grains. -/
structure SizeBins (α : Type) where
  /-- The sizes that bound the bins, one more than there are bins. -/
  edges : List α
  centres : List α
  masses : List α
  density : α
  deriving DecidableEq, Repr

namespace SizeBins

omit [Scalar α] in
/-- The lower and the upper edge of each bin. -/
def spans (b : SizeBins α) : List (α × α) := b.edges.zip b.edges.tail

omit [Scalar α] in
/-- The number of bins. -/
def size (b : SizeBins α) : Nat := b.masses.length

/-! ## Construction -/

/-- The edges of `n` bins of equal logarithmic width. -/
def logEdges (lo hi : α) (n : Nat) : List α :=
  (List.range (n + 1)).map fun i => exp (ln lo + ofNat i / ofNat n * (ln hi - ln lo))

/-- The geometric mean of each pair of neighbours. -/
def geometricMeans (edges : List α) : List α :=
  List.zipWith (fun a b => sqrt (a * b)) edges edges.tail

/-- Empty bins of equal logarithmic width between two sizes. -/
def logSpaced (low high : Length α) (n : Nat) (density : Density α) :
    Except (ConfigError α) (SizeBins α) := do
  let lo := low.metres
  let hi := high.metres
  require (0 < lo ∧ lo < hi ∧ isFinite hi) (.sizeRange lo hi)
  require (n ≠ 0) .noBins
  require (0 < density.kgPerM3 ∧ isFinite density.kgPerM3) .grainDensity
  let edges := logEdges lo hi n
  return {
    edges
    centres := geometricMeans edges
    masses := List.replicate n 0
    density := density.kgPerM3 }

/-- The share of each bin in a power law above the floor; all zero when no bin reaches above it. -/
def powerLawWeights (b : SizeBins α) (floor q : α) : List α :=
  let raw := b.spans.map fun (lo, hi) => powerLawIntegral (fmax lo floor) hi q
  let total := sum raw
  if 0 < total ∧ isFinite total then raw.map (· / total) else raw.map fun _ => 0

/-- The bins filled with a power law of the given total mass, from the size `lower` up. -/
def withPowerLaw (b : SizeBins α) (total : Mass α) (q : α) (lower : Length α) :
    Except (ConfigError α) (SizeBins α) := do
  let weights := b.powerLawWeights lower.metres q
  require (weights.all isZero = false) .populationOutsideGrid
  return { b with masses := List.zipWith (fun _ w => total.kilograms * w) b.masses weights }

/-! ## Properties of single bins -/

/-- The mass in kilograms of one grain of the given size. -/
def grainMass (b : SizeBins α) (s : α) : α := 4.0 / 3.0 * pi * b.density * s * s * s

/-- The cross-section per mass in m²/kg of grains of the given size. -/
def opacity (b : SizeBins α) (s : α) : α := 3.0 / (4.0 * b.density * s)

/-- The smallest size of the grid. -/
def minSize (b : SizeBins α) : Length α := ⟨b.edges.head?.getD 0⟩

/-- The greatest size of the grid. -/
def maxSize (b : SizeBins α) : Length α := ⟨b.edges.getLast?.getD 0⟩

omit [Scalar α] in
/-- The density as a quantity. -/
def materialDensity (b : SizeBins α) : Density α := ⟨b.density⟩

/-! ## The whole grid -/

/-- The solid mass of the disk. -/
def totalMass (b : SizeBins α) : Mass α := ⟨sum b.masses⟩

/-- The active share of each bin. -/
def activeWeights (b : SizeBins α) (floor : α) : List α :=
  b.spans.map fun (lo, hi) => activeWeight lo hi floor

/-- The active mass of each bin. -/
def activeMasses (b : SizeBins α) (floor : α) : List α :=
  List.zipWith (· * ·) b.masses (b.activeWeights floor)

/-- The mass above the floor, and its opacity weighted by mass. -/
def activeSummary (b : SizeBins α) (floor : α) : ActiveSummary α :=
  let active := b.activeMasses floor
  let mass := sum active
  let area := sum (List.zipWith (fun m s => m * b.opacity s) active b.centres)
  { mass, kappa := if 0 < mass then area / mass else 0 }

/-- Empties the bins wholly below the floor; gives the mass they held. -/
def retireBelow (b : SizeBins α) (floor : α) : SizeBins α × α :=
  let below (span : α × α) : Bool := decide (span.2 ≤ floor)
  let retired := ((b.masses.zip b.spans).filter (below ·.2)).map (·.1)
  ({ b with masses := List.zipWith (fun m span => if below span then 0 else m) b.masses b.spans },
    sum retired)

/-- Adds mass to one bin; absent when there is no such bin. -/
def addMass (b : SizeBins α) (bin : Nat) (kg : α) : Option (SizeBins α) :=
  b.masses[bin]?.map fun m => { b with masses := b.masses.set bin (m + kg) }

end SizeBins
end DebrisDisk
