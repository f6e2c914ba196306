import DebrisDisk.Run.Evaluation

/-!
# Advancing the disk by a step

The mass update goes through the processes in a fixed order: bins below the floor are emptied,
supply is spread, then blow-out, sublimation, grinding, gas drag and escape take their share, each
from what the one before left. The ledger then has to close. Only a step that passes yields a new
state.

A step does not pass if it fails, or if a bin refuses a withdrawal.
-/

namespace DebrisDisk
open Scalar

/-- Why a step is not committed. -/
inductive Obstacle (α : Type) where
  /-- A bin held a negative or undefined mass. -/
  | refused
  | failed (e : StepError α)
  deriving DecidableEq, Repr

/-- The result of a step that passed. -/
structure Committed (α : Type) where
  state : DiskState α
  ledger : MassLedger α
  record : StepRecord α
  deriving DecidableEq, Repr

variable {α : Type} [Scalar α]

namespace Evaluation

/-- The blow-out of a step of the given length. -/
def blowoutPlan (e : Evaluation α) (c : RunConfig α) (dt : Time α) : BlowoutPlan α :=
  c.blowout.plan dt.seconds e.blowoutTimes e.eligible e.timescales e.depthGated

/-- Moves the mass of one step, process by process; absent when a bin refused. -/
def moveMass (e : Evaluation α) (c : RunConfig α) (dt : Time α) (delivered : α)
    (bins : SizeBins α) : Option (SizeBins α × MassFlows α) := do
  let floorSize := e.floor.size.metres
  let (bins, floor) := bins.retireBelow floorSize
  let (bins, supply) := c.supply.inject bins delivered floorSize
  let (bins, blowout?) := bins.withdrawAll ((e.blowoutPlan c dt).removal.map some)
  let blowout ← blowout?
  let (bins, sublimation?) := e.sublimation.apply bins dt floorSize
  let sublimation ← sublimation?
  let (bins, ground?) := c.collisions.grind bins e.timescales.coll dt floorSize
  let ground ← ground?
  let (bins, gasDrag?) := c.sinks.gasDrag.apply c.material.density bins dt floorSize
  let gasDrag ← gasDrag?
  let (bins, hydroEscape?) := bins.escape e.timescales.escape dt floorSize
  let hydroEscape ← hydroEscape?
  return (bins,
    { supply, blowout, sublimation, collisions := ground.lost, floor, gasDrag, hydroEscape })

/-- The disk after a step that ends at `time`. -/
def stateAfter (e : Evaluation α) (state : DiskState α) (time : Time α) (bins : SizeBins α)
    (flows : MassFlows α) : DiskState α where
  time
  bins
  surface := e.surface
  grains := e.grains
  tau := e.tau
  pathDepth := e.shielding.pathDepth
  floor := e.floor.size
  model := some e.phase.model
  phase := some e.phase.tag
  totals := state.totals + flows

/-- The report of a step that led to a state. -/
def recordOf (e : Evaluation α) (c : RunConfig α) (step : Nat) (dt : Time α)
    (after : DiskState α) (ledgerError : α) (flows : MassFlows α) : StepRecord α :=
  let mass := after.totalMass.kilograms
  { step, time := after.time.seconds, dt := dt.seconds, phase := e.phase
    timescales := e.timescales, collisions := e.collisions
    gate := (e.blowoutPlan c dt).decision, ledgerError
    disk := {
      mass, sigma := mass / c.disk.area, activeSigma := e.activeSigma
      tau := after.tau, pathDepth := after.pathDepth
      fluxFactor := e.shielding.fluxFactor, skinFluxFactor := e.shielding.skinFluxFactor
      skin := e.shielding.skin
      floor := e.floor.size.metres, floorSource := e.floor.source
      blowoutSize := (c.radiation.blowoutSize c.material.density e.surface).metres
      betaAtFloor := c.radiation.betaAt c.material.density e.floor.size e.surface
      surface := e.surface.kelvin, grains := e.grains.kelvin }
    removed := flows }

/-- Advances a state and its accounts by the step with the given number and length, to which
`delivered` kilograms are supplied. The step ends on the horizon if one is given. -/
def advance (e : Evaluation α) (c : RunConfig α) (step : Nat) (dt : Time α)
    (horizon : Option (Time α)) (delivered : α) (state : DiskState α) (ledger : MassLedger α) :
    Except (Obstacle α) (Committed α) :=
  match e.moveMass c dt delivered state.bins with
  | none => .error .refused
  | some (bins, flows) => do
    let (ledgerError, ledger) ← (ledger.record flows bins.totalMass).check.mapError .failed
    let after := e.stateAfter state (horizon.getD (state.time + dt)) bins flows
    return { state := after, ledger, record := e.recordOf c step dt after ledgerError flows }

end Evaluation

/-- The announcement of a step that passed. -/
def Committed.event (r : Committed α) (e : Evaluation α) : Event α :=
  .committed r.record.step r.record.disk.mass r.record.removed.blowout e.active.kappa
    (e.betas.foldl fmax 0)

end DebrisDisk
