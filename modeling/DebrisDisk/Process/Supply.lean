import DebrisDisk.Grains.SizeBins
import DebrisDisk.Random.ChaCha
import DebrisDisk.Table

/-!
# External supply

Material from outside enters at a rate that follows one of several histories, scaled by a mixing
efficiency and, if asked for, by a random factor with mean one. What is delivered over a step is
spread over the active grid as a power law, over the bins wholly above the floor whenever there are
any.

## Main definitions

* `SupplyHistory.rateAt`, `SupplyHistory.validate`.
* `SupplySettings.sampleMass`: the mass delivered over a step; it draws random numbers only when the
  rate is jittered.
* `SupplySettings.inject`: the delivered mass spread over the bins.
-/

namespace DebrisDisk
open Scalar

/-- A window of constant supply, from its start on until before its stop. -/
structure SupplySegment (α : Type) where
  start : α
  stop : α
  rate : α
  deriving DecidableEq, Repr

/-- One row of a supply table. -/
structure SupplyRow (α : Type) where
  time : α
  rate : α
  deriving DecidableEq, Repr

/-- A supply that varies as a power of the time since its onset. -/
structure SupplyPowerLaw (α : Type) where
  /-- The rate after one second. -/
  amplitude : α
  onset : α
  index : α
  /-- The time by which the onset is softened. -/
  softening : α
  deriving DecidableEq, Repr

/-- The supply rate over time. -/
inductive SupplyHistory (α : Type) where
  | none
  | constant (rate : α)
  /-- A power law, zero before its onset. -/
  | powerLaw (law : SupplyPowerLaw α)
  /-- Windows of constant supply, the first that contains the time deciding. -/
  | piecewise (segments : List (SupplySegment α))
  | table (rows : List (SupplyRow α))
  deriving DecidableEq, Repr

/-- The supply of a run. -/
structure SupplySettings (α : Type) where
  history : SupplyHistory α
  /-- The part of the rate that reaches the disk. -/
  mixing : α
  /-- The width of the random factor, zero for none. -/
  jitter : α
  slope : α
  deriving DecidableEq, Repr

variable {α : Type} [Scalar α]

namespace SupplySegment

/-- The window contains the time. -/
def contains (s : SupplySegment α) (t : α) : Bool := decide (s.start ≤ t) && decide (t < s.stop)

end SupplySegment

namespace SupplyPowerLaw

/-- The rate at a time. -/
def rateAt (l : SupplyPowerLaw α) (t : α) : α :=
  let base := t - l.onset + l.softening
  if 0 < base then l.amplitude * pow base l.index else 0

end SupplyPowerLaw

namespace SupplyHistory

/-- The rate in kilograms per second, before mixing. -/
def rateAt (h : SupplyHistory α) (t : α) : α :=
  match h with
  | none => 0
  | constant rate => rate
  | powerLaw l => l.rateAt t
  | piecewise segments => ((segments.find? (·.contains t)).map (·.rate)).getD 0
  | table rows => Table.interpolate (rows.map fun r => (r.time, r.rate)) t

/-- Rejects a rate that is not finite or negative. -/
def checkRate (part : SupplyPart) (rate : α) : Except (ConfigError α) Unit :=
  require (isNonneg rate) (.supplyRate part rate)

/-- Rejects windows with an unusable rate or extent. -/
def checkSegments : List (SupplySegment α) → Except (ConfigError α) Unit
  | [] => .ok ()
  | s :: rest => do
    checkRate .segment s.rate
    require (¬ s.stop ≤ s.start) .supplySegment
    checkSegments rest

/-- Rejects rows with an unusable rate. -/
def checkRows : List (SupplyRow α) → Except (ConfigError α) Unit
  | [] => .ok ()
  | r :: rest => do
    checkRate .row r.rate
    checkRows rest

/-- Rejects histories with unusable parameters. -/
def validate : SupplyHistory α → Except (ConfigError α) Unit
  | none => .ok ()
  | constant rate => checkRate .constant rate
  | powerLaw l => do
    checkRate .amplitude l.amplitude
    require (¬ l.softening ≤ 0) .supplySoftening
  | piecewise segments => checkSegments segments
  | table rows => do
    require (rows ≠ []) .emptySupplyTable
    require (Table.descends (rows.map (·.time)) = false) .supplyTimes
    checkRows rows

end SupplyHistory

namespace SupplySettings

/-- No supply, with the values that apply once a history is given. -/
def default : SupplySettings α where
  history := .none
  mixing := 1
  jitter := 0
  slope := 3.5

/-- There is a history and some of it reaches the disk. -/
def isActive (s : SupplySettings α) : Bool :=
  match s.history with
  | .none => false
  | _ => decide (0 < s.mixing)

/-- The rate in kilograms per second that reaches the disk. -/
def rate (s : SupplySettings α) (t : Time α) : α := s.mixing * s.history.rateAt t.seconds

/-- A factor with mean one whose logarithm is normally distributed with the width `sigma`, from two
uniform numbers. -/
def jitterFactor (sigma : α) (g : Random.Generator) : α × Random.Generator :=
  let (r1, g) : α × Random.Generator := g.uniform
  let (r2, g) : α × Random.Generator := g.uniform
  let z := sqrt (-2.0 * ln (1 - r1)) * cos (2.0 * pi * r2)
  (exp (sigma * z - 0.5 * sigma * sigma), g)

/-- The mass in kilograms delivered over a step of length `dt` that starts at `t`. -/
def sampleMass (s : SupplySettings α) (t dt : Time α) (g : Random.Generator) :
    α × Random.Generator :=
  if s.isActive then
    let nominal := s.rate t * dt.seconds
    if nominal ≤ 0 then (0, g)
    else if 0 < s.jitter then
      let (factor, g) := jitterFactor s.jitter g
      (nominal * factor, g)
    else (nominal, g)
  else (0, g)

/-- The share of each bin in what is delivered. -/
def shares (s : SupplySettings α) (bins : SizeBins α) (floor : α) : List α :=
  let clipped := bins.powerLawWeights floor s.slope
  let whole := List.zipWith (fun w active => if active < 1 then 0 else w) clipped
    (bins.activeWeights floor)
  let total := sum whole
  if 0 < total then whole.map (· / total) else clipped

/-- Spreads the mass over the bins; gives the mass that found a place. -/
def inject (s : SupplySettings α) (bins : SizeBins α) (kg floor : α) : SizeBins α × α :=
  if kg ≤ 0 then (bins, 0)
  else
    let weights := s.shares bins floor
    if weights.all isZero then (bins, 0)
    else
      let parts := weights.map (kg * ·)
      ({ bins with masses := List.zipWith (· + ·) bins.masses parts }, sum parts)

end SupplySettings
end DebrisDisk
