import DebrisDisk.Blowout.Scope

/-!
# The blow-out gate

When another process removes the same mass on a comparable time, blow-out is attributed only its
share of the combined rate, `t_c / (t_c + t_blow)`. The gate plans the removal of every bin from the
share, the fraction of a step and the mass that blow-out acts on.
-/

namespace DebrisDisk
open Scalar

/-- What the gate decided for one step. It is `engaged` when some bin used the exact fraction. -/
structure GateDecision (α : Type) where
  mode : GateMode
  gate : α
  /-- The removed fraction for the aggregate blow-out time, before the gate. -/
  nominalFraction : α
  loss : α
  /-- The regime of the aggregate time; none when nothing blows out. -/
  fastStep : Option (FastStepRegime α)
  engaged : Bool
  depthGated : Bool
  deriving DecidableEq, Repr

/-- The blow-out of one step, with the mass to remove from each bin. -/
structure BlowoutPlan (α : Type) where
  decision : GateDecision α
  removal : List α
  deriving DecidableEq, Repr

variable {α : Type} [Scalar α]

omit [Scalar α] in
/-- The timescale that competes with blow-out. -/
def GateMode.competing (mode : GateMode) (t : TimescaleSet α) : Timescale α :=
  match mode with
  | none => .infinite
  | sublimation => t.solid
  | collision => t.coll

/-- The share of blow-out in the combined rate, exactly one when either side does not act. -/
def gateFactor : (blow competing : Timescale α) → α
  | .finite b, .finite c => clamp (c / (c + b)) 0 1
  | _, _ => 1

/-- Mass and removal rate of the bins with a finite blow-out time and some eligible mass. -/
def eligibleRate : (mass rate : α) → List (Timescale α × α) → α × α
  | mass, rate, [] => (mass, rate)
  | mass, rate, (.finite s, m) :: rest =>
    if 0 < m then eligibleRate (mass + m) (rate + m / s) rest else eligibleRate mass rate rest
  | mass, rate, (.infinite, _) :: rest => eligibleRate mass rate rest

/-- The harmonic mean of the finite blow-out times, weighted by eligible mass. -/
def aggregateTimescale (times : List (Timescale α)) (eligible : List α) : Timescale α :=
  let (mass, rate) := eligibleRate 0 0 (times.zip eligible)
  if 0 < mass then .ofSeconds (mass / rate) else .infinite

namespace BlowoutSettings

/-- The regime of one bin, if something is removed from it. -/
def binRegime? (s : BlowoutSettings α) (dt : α) (t : Timescale α) (mass : α) :
    Option (FastStepRegime α) :=
  if 0 < mass then s.fastStep.regime? dt t else none

/-- Plans a step of `dt` seconds. The aggregate blow-out time of the same bins is among
`timescales`. -/
def plan (s : BlowoutSettings α) (dt : α) (times : List (Timescale α)) (eligible : List α)
    (timescales : TimescaleSet α) (depthGated : Bool) : BlowoutPlan α :=
  let gate := gateFactor timescales.blow (s.gateMode.competing timescales)
  let aggregate := s.fastStep.regime? dt timescales.blow
  let nominal := (aggregate.map (·.fraction)).getD 0
  let bins := times.zip eligible
  { decision := {
      mode := s.gateMode
      gate
      nominalFraction := nominal
      loss := gate * nominal
      fastStep := aggregate
      engaged := bins.any fun (t, m) => ((s.binRegime? dt t m).map (·.isEngaged)).getD false
      depthGated }
    removal := bins.map fun (t, m) => match s.binRegime? dt t m with
      | some r => gate * r.fraction * m
      | none => 0 }

end BlowoutSettings
end DebrisDisk
