import DebrisDisk.Grains.Withdrawal
import DebrisDisk.Timescale

/-!
# Collisional cascade

In the optically thin skin a grain meets the disk twice per orbit with probability `τ`; in the thick
regime the rate saturates at half of that. The switch is a threshold of one on the vertical optical
depth, and the threshold itself belongs to the skin.

Destroyed mass goes to smaller sizes as a power law of fragments. The share of fragments below the
floor leaves the disk.

## Main definitions

* `OpticalDepthRegime`, `collisionTimescale`.
* `CollisionSettings.grind`: one pass over the bins. Parents are ground from the masses at the start
  of the pass, so fragments made in a pass are not ground again in it.
-/

namespace DebrisDisk
open Scalar

/-- The collisional regime of a vertical optical depth. -/
inductive OpticalDepthRegime (α : Type) where
  | thin (tau : α)
  | thick (tau : α)
  deriving DecidableEq, Repr

/-- Collisional grinding in a run. -/
structure CollisionSettings (α : Type) where
  enabled : Bool
  slope : α
  deriving DecidableEq, Repr

/-- The mass that one pass moved. -/
structure GrindOutcome (α : Type) where
  destroyed : α
  /-- The fragment mass that fell below the floor. -/
  lost : α
  deriving DecidableEq, Repr

variable {α : Type} [Scalar α]

/-- The vertical optical depth of a column with some opacity. -/
def verticalOpticalDepth (kappa : α) (sigma : SurfaceDensity α) : α :=
  fmax (kappa * sigma.kgPerM2) 0

namespace OpticalDepthRegime

omit [Scalar α] in
/-- The optical depth. -/
def depth : OpticalDepthRegime α → α
  | thin tau => tau
  | thick tau => tau

/-- The regime of an optical depth. -/
def classify (tau : α) : OpticalDepthRegime α := if tau ≤ 1 then thin tau else thick tau

end OpticalDepthRegime

/-- The time between destructive collisions. -/
def collisionTimescale (regime : OpticalDepthRegime α) (omega : AngularVelocity α) : Timescale α :=
  match regime with
  | .thin tau => .ofRate (2.0 * omega.radiansPerSecond * tau)
  | .thick tau => .ofRate (omega.radiansPerSecond * tau)

/-- A bin in its part as the source of fragments: its edges and the mass it loses. -/
structure Parent (α : Type) where
  /-- The lower edge, which is the size of the largest fragments. -/
  lower : α
  upper : α
  destroyed : α

namespace Parent

/-- Something is destroyed; an undefined mass counts. -/
def isGround (p : Parent α) : Bool := !decide (p.destroyed ≤ 0)

/-- The integral over all fragment sizes, if fragments can be placed above the floor at all. -/
def fragmentNorm? (q floor : α) (p : Parent α) : Option α :=
  let total := powerLawIntegral 0 p.lower q
  if 0 < total ∧ isFinite total ∧ floor < p.lower then some total else none

/-- The mass that a smaller bin receives, if any. -/
def gain? (q floor : α) (p child : Parent α) : Option α :=
  if p.isGround then
    match p.fragmentNorm? q floor with
    | none => none
    | some total =>
      let share := powerLawIntegral (fmax child.lower floor) child.upper q / total
      if 0 < share then some (p.destroyed * share) else none
  else none

/-- The change of a bin: minus what it loses, then what each larger bin in order sends it. -/
def change (q floor : α) (child : Parent α) (larger : List (Parent α)) : α :=
  larger.foldl (fun acc p => match p.gain? q floor child with
    | some kg => acc + kg
    | none => acc) (if child.isGround then 0 - child.destroyed else 0)

/-- The change of every bin. -/
def changes (q floor : α) : List (Parent α) → List α
  | [] => []
  | p :: larger => p.change q floor larger :: changes q floor larger

/-- The mass of a parent's fragments that found a place in smaller bins. -/
def placed (q floor : α) (smaller : List (Parent α)) (p : Parent α) : α :=
  smaller.foldl (fun acc child => match p.gain? q floor child with
    | some kg => acc + kg
    | none => acc) 0

/-- The sums of the masses destroyed and of the masses lost, on top of `outcome`. -/
def outcome (q floor : α) : GrindOutcome α → (smaller rest : List (Parent α)) → GrindOutcome α
  | o, _, [] => o
  | o, smaller, p :: rest =>
    let o := if p.isGround then
        { destroyed := o.destroyed + p.destroyed
          lost := o.lost + (p.destroyed - p.placed q floor smaller) }
      else o
    outcome q floor o (smaller ++ [p]) rest

end Parent

namespace CollisionSettings

/-- Collisions with the slope of a steady cascade. -/
def default : CollisionSettings α := { enabled := true, slope := 3.5 }

/-- The time between destructive collisions at an optical depth. -/
def timescale (s : CollisionSettings α) (regime : OpticalDepthRegime α)
    (omega : AngularVelocity α) : Timescale α :=
  if s.enabled then collisionTimescale regime omega else .infinite

/-- What each bin loses when a fraction of its active mass is destroyed. -/
def parents (bins : SizeBins α) (floor fraction : α) : List (Parent α) :=
  List.zipWith (fun m (span : α × α) => {
    lower := span.1
    upper := span.2
    destroyed := m * activeWeight span.1 span.2 floor * fraction }) bins.masses bins.spans

/-- Grinds the active bins for `dt`. Gives the bins and the mass moved; the mass is absent when a
bin refused. -/
def grind (s : CollisionSettings α) (bins : SizeBins α) (tColl : Timescale α) (dt : Time α)
    (floor : α) : SizeBins α × Option (GrindOutcome α) :=
  let fraction := tColl.decayFraction dt.seconds
  if s.enabled = false ∨ fraction ≤ 0 then (bins, some ⟨0, 0⟩)
  else
    let ps := parents bins floor fraction
    let (left, fine) := settle bins.masses (Parent.changes s.slope floor ps)
    ({ bins with masses := left },
      if fine then some (Parent.outcome s.slope floor ⟨0, 0⟩ [] ps) else none)

end CollisionSettings
end DebrisDisk
