import DebrisDisk.StepError

/-!
# Selection of the vapor pressure law

A configuration asks for one law, or leaves the choice to the temperature: then the table, the local
fit and the Clausius-Clapeyron law are tried in this order and the first that holds is used. The
last one always holds, so an automatic choice never fails, while a fixed law fails outside its
domain.
-/

namespace DebrisDisk
open Scalar

/-- The law that a configuration asks for. -/
inductive RequestedModel where
  | fixed (model : PressureModel)
  | automatic
  deriving DecidableEq, Repr

/-- Sublimation and vapor pressure in a run. -/
structure SublimationSettings (α : Type) where
  enabled : Bool
  model : RequestedModel
  clausius : ClausiusCoefficients α
  liquid : Option (LiquidBranch α)
  table : List (PressureRow α)
  window : α
  minPoints : Nat
  evaporation : α
  molarMass : α
  gasPressure : α
  deriving DecidableEq, Repr

/-- The vapor pressure at one temperature. -/
structure PressureEvaluation (α : Type) where
  model : PressureModel
  log10Pressure : α
  pressure : Pressure α
  deriving DecidableEq, Repr

/-- The laws that a run may use. -/
inductive PressureSelector (α : Type) where
  | fixed (law : PressureLaw α)
  /-- Candidates in order, and the law that always holds. -/
  | ladder (candidates : List (PressureLaw α)) (last : ClausiusLaw α)
  deriving DecidableEq, Repr

variable {α : Type} [Scalar α]

namespace SublimationSettings

/-- Silicate with an automatic choice of the law and no table. -/
def default : SublimationSettings α where
  enabled := true
  model := .automatic
  clausius := { a := 13.613, b := 17850.0 }
  liquid := none
  table := []
  window := 300.0
  minPoints := 3
  evaporation := 0.007
  molarMass := 0.0440849
  gasPressure := 0

omit [Scalar α] in
/-- The law with fixed coefficients. -/
def baseline (s : SublimationSettings α) : ClausiusLaw α :=
  { solid := s.clausius, liquid := s.liquid }

/-- The interpolated table. -/
def tabulatedLaw (s : SublimationSettings α) : Except (ConfigError α) (PressureLaw α) := do
  PressureRow.checkRows s.table
  return .tabulated s.table

/-- The local fit. -/
def fitLaw (s : SublimationSettings α) : Except (ConfigError α) (PressureLaw α) :=
  .localFit <$> LocalFit.of s.table s.window s.minPoints

/-- The laws that an automatic choice tries before the last. -/
def candidates (s : SublimationSettings α) : Except (ConfigError α) (List (PressureLaw α)) :=
  if s.table = [] then return []
  else do
    let tabulated ← s.tabulatedLaw
    if s.minPoints ≤ s.table.length then
      let fit ← s.fitLaw
      return [tabulated, fit]
    else return [tabulated]

/-- The laws that a run uses, unless the table or the fit is not usable. -/
def selector (s : SublimationSettings α) : Except (ConfigError α) (PressureSelector α) :=
  match s.model with
  | .fixed .clausiusClapeyron => .ok (.fixed (.clausius s.baseline))
  | .fixed .tabulated => do
    require (s.table ≠ []) .pressureTableMissing
    return .fixed (← s.tabulatedLaw)
  | .fixed .localFit => .fixed <$> s.fitLaw
  | .automatic => do return .ladder (← s.candidates) s.baseline

end SublimationSettings

namespace PressureSelector

/-- The law in use at a temperature in kelvin. -/
def law (s : PressureSelector α) (t : α) : Except (StepError α) (PressureLaw α) :=
  match s with
  | fixed l => if l.isValid t then .ok l else .error (.modelDomainExhausted l.model t)
  | ladder candidates last => .ok ((candidates.find? (·.isValid t)).getD (.clausius last))

/-- The vapor pressure at a temperature. -/
def select (s : PressureSelector α) (temperature : Temperature α) :
    Except (StepError α) (PressureEvaluation α) := do
  let t := temperature.kelvin
  let l ← s.law t
  let log10Pressure := l.log10Pressure t
  return { model := l.model, log10Pressure, pressure := ⟨pow 10.0 log10Pressure⟩ }

end PressureSelector
end DebrisDisk
