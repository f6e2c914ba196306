import DebrisDisk.Config.Error
import DebrisDisk.Quantity
import DebrisDisk.Table

/-!
# Vapor pressure laws

Three laws give the saturation pressure of silicate vapor. A table of measurements is interpolated
in the logarithm of the pressure and holds inside its range of temperatures. A local fit puts the
law `log10 P = A - B / T` through the rows near the temperature, by least squares, and holds within
a window around the table. The Clausius-Clapeyron law has fixed coefficients, with others above a
switch temperature if there is a liquid branch, and holds at every temperature.

## Main definitions

* `PressureLaw`, `PressureLaw.isValid`, `PressureLaw.log10Pressure`.
* `LocalFit.pick`, `LocalFit.coefficients`: the rows near a temperature and the line through them.
-/

namespace DebrisDisk
open Scalar

/-- The laws by name. -/
inductive PressureModel where
  | tabulated
  | localFit
  | clausiusClapeyron
  deriving DecidableEq, Repr

/-- The name of a law in messages. -/
def PressureModel.label : PressureModel → String
  | tabulated => "tabulated"
  | localFit => "local-fit"
  | clausiusClapeyron => "clausius-clapeyron"

/-- One measurement. -/
structure PressureRow (α : Type) where
  temperature : α
  log10Pressure : α
  deriving DecidableEq, Repr

/-- The coefficients of `log10 P = A - B / T`. -/
structure ClausiusCoefficients (α : Type) where
  a : α
  b : α
  deriving DecidableEq, Repr

/-- Coefficients that hold from some temperature up. -/
structure LiquidBranch (α : Type) where
  a : α
  b : α
  /-- The temperature from which the branch holds. -/
  switch : α
  deriving DecidableEq, Repr

/-- The law with fixed coefficients. -/
structure ClausiusLaw (α : Type) where
  solid : ClausiusCoefficients α
  liquid : Option (LiquidBranch α)
  deriving DecidableEq, Repr

/-- The fit to rows near a temperature. -/
structure LocalFit (α : Type) where
  rows : List (PressureRow α)
  /-- The greatest distance of the rows that are used. -/
  window : α
  minPoints : Nat
  deriving DecidableEq, Repr

/-- A vapor pressure law. -/
inductive PressureLaw (α : Type) where
  | tabulated (rows : List (PressureRow α))
  | localFit (fit : LocalFit α)
  | clausius (law : ClausiusLaw α)
  deriving DecidableEq, Repr

variable {α : Type} [Scalar α]

/-! ## Tables -/

namespace PressureRow

/-- Rejects rows that are not usable as a table. -/
def checkRows (rows : List (PressureRow α)) : Except (ConfigError α) Unit := do
  require (2 ≤ rows.length) .shortPressureTable
  require (∀ r ∈ rows, 0 < r.temperature ∧ isFinite r.temperature ∧ isFinite r.log10Pressure)
    .pressureRows
  require (Table.descends (rows.map (·.temperature)) = false) .pressureTemperatures

/-- The lowest temperature of a table. -/
def lowest (rows : List (PressureRow α)) : α := (rows.head?.map (·.temperature)).getD 0

/-- The highest temperature of a table. -/
def highest (rows : List (PressureRow α)) : α := (rows.getLast?.map (·.temperature)).getD 0

end PressureRow

/-! ## Fixed coefficients -/

/-- The law `A - B / T`. -/
def ClausiusCoefficients.log10Pressure (c : ClausiusCoefficients α) (t : α) : α := c.a - c.b / t

/-- The liquid branch from its switch temperature up, the solid coefficients below. -/
def ClausiusLaw.log10Pressure (l : ClausiusLaw α) (t : α) : α :=
  match l.liquid with
  | some branch =>
    if branch.switch ≤ t then branch.a - branch.b / t else l.solid.log10Pressure t
  | none => l.solid.log10Pressure t

/-! ## The local fit -/

namespace LocalFit

/-- A fit with usable rows, window and count of points. -/
def of (rows : List (PressureRow α)) (window : α) (minPoints : Nat) :
    Except (ConfigError α) (LocalFit α) := do
  require (2 ≤ minPoints) .fitPoints
  require (minPoints ≤ rows.length) (.fitRows minPoints rows.length)
  require (isNonneg window) .fitWindow
  PressureRow.checkRows rows
  return { rows, window, minPoints }

/-- The distance in kelvin of a row. -/
def distance (centre : α) (r : PressureRow α) : α := magnitude (r.temperature - centre)

/-- The rows within the window, or the nearest ones if these are too few. The temperature is first
moved into the range of the table. -/
def pick (f : LocalFit α) (t : α) : List (PressureRow α) :=
  let centre := clamp t (PressureRow.lowest f.rows) (PressureRow.highest f.rows)
  let near := f.rows.filter fun r => decide (distance centre r ≤ f.window)
  if near.length < f.minPoints then
    (f.rows.mergeSort fun r s => !decide (distance centre s < distance centre r)).take f.minPoints
  else near

/-- The line of least squares through rows, in the inverse of the temperature. -/
def leastSquares (rows : List (PressureRow α)) : ClausiusCoefficients α :=
  let n : α := ofNat rows.length
  let xMean := sum (rows.map fun r => 1 / r.temperature) / n
  let yMean := sum (rows.map (·.log10Pressure)) / n
  let sxy := sum (rows.map fun r => (1 / r.temperature - xMean) * (r.log10Pressure - yMean))
  let sxx := sum (rows.map fun r => (1 / r.temperature - xMean) * (1 / r.temperature - xMean))
  let slope := if 0 < sxx then sxy / sxx else 0
  { a := yMean - slope * xMean, b := -slope }

/-- The coefficients near a temperature. -/
def coefficients (f : LocalFit α) (t : α) : ClausiusCoefficients α := leastSquares (f.pick t)

end LocalFit

/-! ## Laws -/

namespace PressureLaw

omit [Scalar α] in
/-- The name of the law. -/
def model : PressureLaw α → PressureModel
  | tabulated _ => .tabulated
  | localFit _ => .localFit
  | clausius _ => .clausiusClapeyron

/-- Whether the law holds at a temperature in kelvin. -/
def isValid (l : PressureLaw α) (t : α) : Bool :=
  match l with
  | tabulated rows => decide (PressureRow.lowest rows ≤ t) && decide (t ≤ PressureRow.highest rows)
  | localFit f =>
    decide (PressureRow.lowest f.rows - f.window ≤ t)
      && decide (t ≤ PressureRow.highest f.rows + f.window)
  | clausius _ => true

/-- The decimal logarithm of the pressure in pascals at a temperature in kelvin. -/
def log10Pressure (l : PressureLaw α) (t : α) : α :=
  match l with
  | tabulated rows => Table.interpolate (rows.map fun r => (r.temperature, r.log10Pressure)) t
  | localFit f => (f.coefficients t).log10Pressure t
  | clausius law => law.log10Pressure t

end PressureLaw
end DebrisDisk
