import DebrisDisk.Geometry
import DebrisDisk.Surface
import DebrisDisk.Timescale

/-!
# Radiation pressure

The hot surface of Mars pushes grains outwards. The ratio `β` of that force to the planet's gravity
falls as the inverse of the grain size. Grains whose `β` exceeds a threshold are unbound and leave
within about an orbit; at the threshold itself they stay.

## Main definitions

* `forceRatio`, `blowoutRadius`: the ratio of a size, and the size of a ratio.
* `BetaRegime`, `blowoutTimescale`.
* `RadiationSettings.binBlowout`: the regime and the timescale of every bin.
-/

namespace DebrisDisk
open Scalar

/-- The blow-out efficiency, which multiplies the orbital time. -/
inductive BlowoutEfficiency (α : Type) where
  /-- The given number, kept within bounds. -/
  | fixed (chi : α)
  | automatic
  deriving DecidableEq, Repr

/-- Blow-out is suppressed while the disk is optically thick along the line of sight. -/
structure DepthGateSettings (α : Type) where
  enabled : Bool
  maxDepth : α
  deriving DecidableEq, Repr

/-- Radiation pressure in a run. -/
structure RadiationSettings (α : Type) where
  mars : Bool
  /-- The sun is asked to push grains, which is not followed. -/
  solar : Bool
  efficiency : α
  /-- The force ratio above which grains are unbound. -/
  threshold : α
  blowoutEfficiency : BlowoutEfficiency α
  /-- A force ratio for every bin, in place of the computed ones. -/
  override : Option α
  depthGate : DepthGateSettings α
  deriving DecidableEq, Repr

/-- Whether radiation unbinds a grain, with the force ratio and the threshold. -/
inductive BetaRegime (α : Type) where
  | bound (beta threshold : α)
  | unbound (beta threshold : α)
  deriving DecidableEq, Repr

/-- The regime and the blow-out time of one bin. -/
structure BinBlowout (α : Type) where
  regime : BetaRegime α
  time : Timescale α
  deriving DecidableEq, Repr

variable {α : Type} [Scalar α]

/-- The speed of light in m/s. -/
def lightSpeed : α := 2.99792458e8

/-- The force ratio above which grains on circular orbits are unbound. -/
def circularThreshold : α := 0.5

/-- The luminosity of the surface of Mars in watts. -/
def marsLuminosity (surface : Temperature α) : α :=
  4.0 * pi * marsRadius * marsRadius * stefanBoltzmann * surface.powi 4

/-- The ratio of radiation force to gravity for one grain size, zero for an unphysical grain. -/
def forceRatio (size : Length α) (density : α) (surface : Temperature α) (efficiency : α) : α :=
  let s := size.metres
  if s ≤ 0 ∨ density ≤ 0 then 0
  else 3.0 * marsLuminosity surface * efficiency
    / (16.0 * pi * lightSpeed * gravitation * marsMass * density * s)

/-- The grain size whose force ratio equals the threshold, zero for unphysical arguments. -/
def blowoutRadius (density : α) (surface : Temperature α) (efficiency threshold : α) : Length α :=
  if density ≤ 0 ∨ threshold ≤ 0 then 0
  else ⟨3.0 * marsLuminosity surface * efficiency
    / (16.0 * pi * lightSpeed * gravitation * marsMass * density * threshold)⟩

namespace BetaRegime

/-- The regime of a force ratio. -/
def classify (beta threshold : α) : BetaRegime α :=
  if threshold < beta then unbound beta threshold else bound beta threshold

omit [Scalar α] in
/-- The force ratio. -/
def beta : BetaRegime α → α
  | bound b _ => b
  | unbound b _ => b

omit [Scalar α] in
/-- The grain leaves. -/
def isUnbound : BetaRegime α → Bool
  | bound _ _ => false
  | unbound _ _ => true

end BetaRegime

namespace BlowoutEfficiency

/-- The least efficiency in use. -/
def least : α := 0.5

/-- The greatest efficiency in use. -/
def greatest : α := 2.0

/-- The efficiency that follows from a force ratio: it falls as the ratio grows, and with the
efficiency of radiation pressure. -/
def ofRatio (beta efficiency : α) : α :=
  let beta := if isFinite beta ∧ 0 < beta then beta else circularThreshold
  let efficiency := if isFinite efficiency ∧ 0 < efficiency then efficiency else 1
  let chi := fmax (1 / (1 + 0.5 * (beta / circularThreshold - 1))) 0.1
  clamp (chi * clamp efficiency 0.5 1.5) least greatest

/-- The efficiency for a grain with some force ratio. -/
def value (c : BlowoutEfficiency α) (beta efficiency : α) : α :=
  match c with
  | fixed chi => clamp chi least greatest
  | automatic => ofRatio beta efficiency

end BlowoutEfficiency

/-- The blow-out time: an orbital time times the efficiency for grains that leave. -/
def blowoutTimescale (regime : BetaRegime α) (c : BlowoutEfficiency α) (efficiency : α)
    (omega : AngularVelocity α) : Timescale α :=
  match regime with
  | .bound _ _ => .infinite
  | .unbound beta _ => .ofSeconds (c.value beta efficiency / omega.radiansPerSecond)

namespace RadiationSettings

/-- Radiation pressure from Mars at full efficiency, without a gate. -/
def default : RadiationSettings α where
  mars := true
  solar := false
  efficiency := 1
  threshold := circularThreshold
  blowoutEfficiency := .fixed 1
  override := none
  depthGate := { enabled := false, maxDepth := 1 }

/-- The force ratio of a grain size before shielding. -/
def betaAt (s : RadiationSettings α) (density : α) (size : Length α) (surface : Temperature α) :
    α :=
  if s.mars then
    match s.override with
    | some fixed => fixed
    | none => forceRatio size density surface s.efficiency
  else 0

/-- The size at which the force ratio reaches the threshold, zero without radiation. -/
def blowoutSize (s : RadiationSettings α) (density : α) (surface : Temperature α) : Length α :=
  if s.mars then blowoutRadius density surface s.efficiency s.threshold else 0

/-- The force ratio at each bin centre before shielding. -/
def binBetas (s : RadiationSettings α) (density : α) (centres : List α)
    (surface : Temperature α) : List α :=
  centres.map fun c => s.betaAt density ⟨c⟩ surface

/-- The regime and blow-out time of each bin under the flux that is left. -/
def binBlowout (s : RadiationSettings α) (betas : List α) (flux : α)
    (omega : AngularVelocity α) : List (BinBlowout α) :=
  betas.map fun b =>
    let regime := BetaRegime.classify (b * flux) s.threshold
    { regime, time := blowoutTimescale regime s.blowoutEfficiency s.efficiency omega }

end RadiationSettings
end DebrisDisk
