import DebrisDisk.StepError

/-!
# Mass ledger

Every kilogram that enters or leaves the bins is attributed to a process. The ledger adds up these
flows and compares the initial mass, plus what came in, minus what went out, with the mass that the
bins hold. A difference beyond the tolerance, or an undefined one, ends the run.
-/

namespace DebrisDisk
open Scalar

/-- The mass in kilograms that each process moved. -/
structure MassFlows (α : Type) where
  supply : α
  blowout : α
  sublimation : α
  /-- Ground below the floor. -/
  collisions : α
  /-- Held by bins that the floor overtook. -/
  floor : α
  gasDrag : α
  hydroEscape : α
  deriving DecidableEq, Repr

/-- The accounts of a run. The tolerance and the errors are in percent of the initial mass. -/
structure MassLedger (α : Type) where
  initial : α
  totals : MassFlows α
  current : α
  tolerance : α
  /-- The greatest error that a check has found within the tolerance. -/
  maxError : α
  deriving DecidableEq, Repr

variable {α : Type} [Scalar α]

namespace MassFlows

/-- Nothing moved. -/
def zero : MassFlows α := ⟨0, 0, 0, 0, 0, 0, 0⟩

omit [Scalar α] in
/-- What came in. -/
def sources (f : MassFlows α) : α := f.supply

/-- What went out. -/
def sinks (f : MassFlows α) : α :=
  f.blowout + f.sublimation + f.collisions + f.floor + f.gasDrag + f.hydroEscape

/-- The flows of two steps together. -/
def add (f g : MassFlows α) : MassFlows α where
  supply := f.supply + g.supply
  blowout := f.blowout + g.blowout
  sublimation := f.sublimation + g.sublimation
  collisions := f.collisions + g.collisions
  floor := f.floor + g.floor
  gasDrag := f.gasDrag + g.gasDrag
  hydroEscape := f.hydroEscape + g.hydroEscape

instance : Add (MassFlows α) := ⟨add⟩

end MassFlows

namespace MassLedger

/-- The accounts of bins with some initial mass. -/
def opening (initial : Mass α) (tolerance : α) : Except (ConfigError α) (MassLedger α) := do
  let kg := initial.kilograms
  require (isPositive kg) (.initialKilograms kg)
  return { initial := kg, totals := .zero, current := kg, tolerance, maxError := 0 }

/-- Adds the flows of a step and the mass that the bins hold after it. -/
def record (l : MassLedger α) (flows : MassFlows α) (current : Mass α) : MassLedger α :=
  { l with totals := l.totals + flows, current := current.kilograms }

/-- The mass in kilograms that the flows do not explain. -/
def discrepancy (l : MassLedger α) : α :=
  l.initial + l.totals.sources - l.totals.sinks - l.current

/-- The discrepancy in percent of the initial mass. -/
def errorPercent (l : MassLedger α) : α := magnitude l.discrepancy / l.initial * 100.0

/-- Compares the error with the tolerance; gives the error and the accounts with the check noted. -/
def check (l : MassLedger α) : Except (StepError α) (α × MassLedger α) :=
  let error := l.errorPercent
  if error ≤ l.tolerance then .ok (error, { l with maxError := fmax l.maxError error })
  else .error (.budgetViolation error l.tolerance l.discrepancy)

end MassLedger
end DebrisDisk
