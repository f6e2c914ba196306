import DebrisDisk.Blowout.Gate
import DebrisDisk.Grains.SizeFloor
import DebrisDisk.Ledger
import DebrisDisk.Process.Collision

/-!
# States and records

`DiskState` is the disk at the boundary of two steps. `StepRecord` is what is reported about one
step. The solid mass is always the sum over the bins.
-/

namespace DebrisDisk

/-- The disk between two steps. The surface is that of Mars, and `pathDepth` is the optical depth
along the line of sight. -/
structure DiskState (α : Type) where
  time : Time α
  bins : SizeBins α
  surface : Temperature α
  grains : Temperature α
  tau : α
  pathDepth : α
  floor : Length α
  /-- The vapor pressure law of the last step. -/
  model : Option PressureModel
  phase : Option PhaseTag
  /-- The mass that each process has moved since the start. -/
  totals : MassFlows α
  deriving DecidableEq, Repr

/-- The solid mass. -/
def DiskState.totalMass {α : Type} [Scalar α] (s : DiskState α) : Mass α := s.bins.totalMass

/-- The disk in a record: its mass and surface density after the step, and what the step was
computed from. -/
structure DiskSummary (α : Type) where
  mass : α
  sigma : α
  activeSigma : α
  tau : α
  pathDepth : α
  fluxFactor : α
  skinFluxFactor : α
  skin : SkinColumn α
  floor : α
  floorSource : FloorSource
  blowoutSize : α
  betaAtFloor : α
  surface : α
  grains : α
  deriving DecidableEq, Repr

/-- The report of one step. -/
structure StepRecord (α : Type) where
  /-- The number of the step, from zero. -/
  step : Nat
  /-- The time at the end of the step. -/
  time : α
  dt : α
  phase : PhaseState α
  timescales : TimescaleSet α
  collisions : OpticalDepthRegime α
  gate : GateDecision α
  /-- The error of the ledger in percent of the initial mass. -/
  ledgerError : α
  disk : DiskSummary α
  removed : MassFlows α
  deriving DecidableEq, Repr

end DebrisDisk
