import DebrisDisk.Quantity

/-!
# Timescales

Every removal process reports how long it takes. A process that does not act is `infinite`, a case
of its own, so that its rate and its removed fraction are exactly zero and no large number has to
stand in for it.

## Main definitions

* `Timescale`, with `Timescale.rate`, `Timescale.decayFraction` and `Timescale.shorter`.
* `TimescaleSet`: the five competing timescales of a step, and the `fastest` of them.
-/

namespace DebrisDisk
open Scalar

/-- A characteristic removal time. -/
inductive Timescale (α : Type) where
  | finite (seconds : α)
  /-- The process does not act. -/
  | infinite
  deriving DecidableEq, Repr

namespace Timescale
variable {α : Type} [Scalar α]

/-- The timescale of a duration; one that is not positive and finite means no action. -/
def ofSeconds (s : α) : Timescale α :=
  if isFinite s ∧ 0 < s then finite s else infinite

/-- The timescale of a rate per second; one that is not positive and finite means no action. -/
def ofRate (r : α) : Timescale α :=
  if isFinite r ∧ 0 < r then ofSeconds (1 / r) else infinite

omit [Scalar α] in
/-- The duration in seconds, if the process acts. -/
def seconds? : Timescale α → Option α
  | finite s => some s
  | infinite => none

omit [Scalar α] in
/-- The duration as a time, if the process acts. -/
def time? (t : Timescale α) : Option (Time α) := t.seconds?.map Quantity.mk

omit [Scalar α] in
/-- The process acts. -/
def isFinite (t : Timescale α) : Bool := t.seconds?.isSome

/-- The removal rate per second. -/
def rate : Timescale α → α
  | finite s => 1 / s
  | infinite => 0

/-- The fraction that exponential decay removes in `dt` seconds. -/
def decayFraction (dt : α) : Timescale α → α
  | finite s => clamp (-(expm1 (-dt / s))) 0 1
  | infinite => 0

/-- The shorter of two timescales. -/
def shorter : Timescale α → Timescale α → Timescale α
  | finite a, finite b => finite (fmin a b)
  | finite a, infinite => finite a
  | infinite, t => t

@[simp] theorem rate_infinite : (infinite : Timescale α).rate = 0 := rfl
@[simp] theorem decayFraction_infinite (dt : α) : (infinite : Timescale α).decayFraction dt = 0 :=
  rfl
@[simp] theorem shorter_infinite (t : Timescale α) : t.shorter infinite = t := by cases t <;> rfl
@[simp] theorem infinite_shorter (t : Timescale α) : infinite.shorter t = t := by cases t <;> rfl

end Timescale

/-- The competing timescales of one step. -/
structure TimescaleSet (α : Type) where
  /-- Blow-out by radiation pressure, weighted by eligible mass. -/
  blow : Timescale α
  /-- Sublimation of grains at the size floor. -/
  solid : Timescale α
  coll : Timescale α
  /-- Gas drag at the size floor. -/
  drag : Timescale α
  escape : Timescale α
  deriving DecidableEq, Repr

namespace TimescaleSet
variable {α : Type}

/-- No process acts. -/
def inactive : TimescaleSet α := ⟨.infinite, .infinite, .infinite, .infinite, .infinite⟩

/-- The shortest timescale of the processes that act. -/
def fastest [Scalar α] (t : TimescaleSet α) : Timescale α :=
  (((t.blow.shorter t.solid).shorter t.coll).shorter t.drag).shorter t.escape

end TimescaleSet
end DebrisDisk
