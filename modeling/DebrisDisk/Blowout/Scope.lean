import DebrisDisk.Blowout.FastStep
import DebrisDisk.Process.Shielding
import DebrisDisk.Vapor.Phase

/-!
# What blow-out acts on

Blow-out acts on the active mass, or on the skin alone, and only while the disk is solid unless any
phase is targeted.
-/

namespace DebrisDisk
open Scalar

/-- In which phase blow-out acts. -/
inductive TargetPhase where
  | solidOnly
  | any
  deriving DecidableEq, Repr

/-- Which grains blow-out acts on. -/
inductive BlowoutLayer where
  /-- Those of the skin with an optical depth of one. -/
  | skin
  | full
  deriving DecidableEq, Repr

/-- Which process competes with blow-out for the same mass. -/
inductive GateMode where
  | none
  | sublimation
  | collision
  deriving DecidableEq, Repr

/-- Blow-out in a run. -/
structure BlowoutSettings (α : Type) where
  enabled : Bool
  gateMode : GateMode
  target : TargetPhase
  layer : BlowoutLayer
  fastStep : FastStepSettings α
  deriving DecidableEq, Repr

variable {α : Type} [Scalar α]

/-- The share of a column that belongs to the skin, zero for an empty column. -/
def SkinColumn.share (skin : SkinColumn α) (active : α) : α :=
  if 0 < active then
    match skin with
    | unbounded => 1
    | column sigma =>
      if isFinite sigma = false ∧ isNaN sigma = false then 1 else clamp (sigma / active) 0 1
  else 0

namespace BlowoutSettings

/-- Blow-out of the skin while the disk is solid, without a competing process. -/
def default : BlowoutSettings α where
  enabled := true
  gateMode := .none
  target := .solidOnly
  layer := .skin
  fastStep := .default

/-- The fraction of the active mass that blow-out acts on. -/
def eligibleFraction (s : BlowoutSettings α) (phase : PhaseTag) (skin : SkinColumn α)
    (active : α) : α :=
  if s.enabled = false ∨ (s.target = .solidOnly ∧ phase = .vapor) then 0
  else
    match s.layer with
    | .full => 1
    | .skin => skin.share active

end BlowoutSettings
end DebrisDisk
