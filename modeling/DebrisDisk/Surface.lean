import DebrisDisk.Config.Error
import DebrisDisk.Geometry
import DebrisDisk.Table

/-!
# Surface temperature of Mars

The surface heated by the impact is the radiation source of the disk. Its temperature over time is
constant, read from a table, or follows one of two cooling laws: radiative cooling of a uniform
slab, or linear cooling at constant flux down to a floor.

Grains at the orbit take a fixed multiple of the surface temperature, `grainTemperature`.

## Main definitions

* `SurfaceHistory`, `SurfaceHistory.temperatureAt`, `SurfaceHistory.validate`.
* `SlabLayer.timeToReach`, `LinearLayer.coolingTime`: the cooling laws read the other way.
-/

namespace DebrisDisk
open Scalar

/-- The Stefan-Boltzmann constant in W/(m² K⁴). -/
def stefanBoltzmann {α : Type} [Scalar α] : α := 5.670374419e-8

/-- Why there is no surface temperature at some time. -/
inductive TemperatureError (α : Type) where
  | outOfRange (time first last : α)
  /-- The temperature is no usable number. -/
  | nonFinite (time : α)
  deriving DecidableEq, Repr

/-- The wording of a temperature error. -/
def TemperatureError.message {α : Type} [HasBinaryValue α] : TemperatureError α → String
  | outOfRange t lo hi =>
    let text (x : α) := Decimal.shortest (binaryValue x)
    "time " ++ text t ++ " s outside temperature table range [" ++ text lo ++ ", " ++ text hi
      ++ "] s"
  | nonFinite t =>
    "temperature driver produced non-finite value at t = " ++ Decimal.shortest (binaryValue t)
      ++ " s"

/-- Whether a temperature was looked up or computed. -/
inductive TemperatureSource where
  | table
  | analytic
  deriving DecidableEq, Repr

/-- What a table says about times outside its range. -/
inductive Extrapolation where
  /-- The value of the nearer end. -/
  | hold
  | fail
  deriving DecidableEq, Repr

/-- One row of a temperature table. -/
structure TemperatureRow (α : Type) where
  time : α
  temperature : α
  deriving DecidableEq, Repr

/-- A uniform slab that radiates from its surface. -/
structure SlabLayer (α : Type) where
  initial : α
  depth : α
  density : α
  heatCapacity : α
  deriving DecidableEq, Repr

/-- A layer that cools at constant flux. -/
structure LinearLayer (α : Type) where
  initial : α
  /-- The temperature at which cooling ends. -/
  floor : α
  depth : α
  deriving DecidableEq, Repr

/-- A table of surface temperatures. -/
structure TemperatureTable (α : Type) where
  rows : List (TemperatureRow α)
  extrapolation : Extrapolation
  deriving DecidableEq, Repr

/-- The surface temperature over time. -/
inductive SurfaceHistory (α : Type) where
  | constant (kelvin : α)
  | table (t : TemperatureTable α)
  | slab (layer : SlabLayer α)
  | linear (layer : LinearLayer α)
  deriving DecidableEq, Repr

variable {α : Type} [Scalar α]

/-! ## Cooling laws -/

namespace SlabLayer

/-- The growth of `T⁻³` per second. -/
def coefficient (l : SlabLayer α) : α :=
  3.0 * stefanBoltzmann / (l.depth * l.density * l.heatCapacity)

/-- The temperature whose inverse cube has grown from the initial one for `t` seconds. -/
def temperatureAt (l : SlabLayer α) (t : α) : α :=
  pow (powi l.initial (-3) + l.coefficient * fmax t 0) (-1.0 / 3.0)

/-- The time to cool to a temperature, zero if it is not below the initial one. -/
def timeToReach (l : SlabLayer α) (target : Temperature α) : Time α :=
  ⟨fmax ((target.powi (-3) - powi l.initial (-3)) / l.coefficient) 0⟩

end SlabLayer

namespace LinearLayer

/-- The time to cool to the floor: 717 days for a depth of 100 km, a drop of 3000 K and an initial
temperature of 4000 K, and in proportion to each. -/
def coolingTime (l : LinearLayer α) : Time α :=
  let drop := l.initial - l.floor
  if drop ≤ 0 then 0
  else .ofDays (717.0 * ((⟨l.depth⟩ : Length α).kilometres / 100.0) * (drop / 3000.0)
    * (l.initial / 4000.0))

/-- The cooling rate in kelvin per second. -/
def slope (l : LinearLayer α) : α :=
  let t := l.coolingTime.seconds
  if 0 < t then (l.initial - l.floor) / t else 0

/-- The temperature after `t` seconds. -/
def temperatureAt (l : LinearLayer α) (t : α) : α :=
  fmax (l.initial - l.slope * fmax t 0) l.floor

end LinearLayer

namespace TemperatureTable

/-- Rejects rows that are not usable as a table. -/
def checkRows (rows : List (TemperatureRow α)) : Except (ConfigError α) Unit := do
  require (rows ≠ []) .emptyTemperatureTable
  require (∀ r ∈ rows, isFinite r.time ∧ isFinite r.temperature ∧ ¬ r.temperature ≤ 0)
    .temperatureRows
  require (Table.descends (rows.map (·.time)) = false) .temperatureTimes

/-- The knots of the interpolation. -/
def knots (t : TemperatureTable α) : List (α × α) := t.rows.map fun r => (r.time, r.temperature)

/-- The table at a time in seconds. -/
def temperatureAt (table : TemperatureTable α) (t : α) : Except (TemperatureError α) α :=
  let first := (table.rows.head?.map (·.time)).getD 0
  let last := (table.rows.getLast?.map (·.time)).getD 0
  if table.extrapolation = .fail ∧ (t < first ∨ last < t) then .error (.outOfRange t first last)
  else
    let value := Table.interpolate table.knots t
    if isFinite value then .ok value else .error (.nonFinite t)

end TemperatureTable

/-! ## Histories -/

namespace SurfaceHistory

/-- The lowest initial temperature in kelvin that is accepted. -/
def minInitial : α := 1000.0

/-- The highest initial temperature in kelvin that is accepted. -/
def maxInitial : α := 6500.0

omit [Scalar α] in
/-- The temperature in kelvin that a history declares for its start. -/
def initial? : SurfaceHistory α → Option α
  | constant t => some t
  | table t => t.rows.head?.map (·.temperature)
  | slab l => some l.initial
  | linear l => some l.initial

omit [Scalar α] in
/-- Whether the temperatures are looked up or computed. -/
def source : SurfaceHistory α → TemperatureSource
  | table _ => .table
  | _ => .analytic

/-- Rejects histories with an unusual initial temperature or unusable parameters. -/
def validate (h : SurfaceHistory α) : Except (ConfigError α) Unit :=
  match h.initial? with
  | none => .error .emptyTemperatureTable
  | some t0 => do
    require (minInitial ≤ t0 ∧ t0 ≤ maxInitial) (.initialTemperature t0)
    match h with
    | constant _ => .ok ()
    | table t => TemperatureTable.checkRows t.rows
    | slab l => require (¬ (l.depth ≤ 0 ∨ l.density ≤ 0 ∨ l.heatCapacity ≤ 0)) .slabLayer
    | linear l => require (¬ (l.floor < 0 ∨ l.initial ≤ l.floor ∨ l.depth ≤ 0)) .linearLayer

/-- The surface temperature at a time. -/
def temperatureAt (h : SurfaceHistory α) (time : Time α) :
    Except (TemperatureError α) (Temperature α) :=
  match h with
  | constant t => .ok ⟨t⟩
  | table t => Quantity.mk <$> t.temperatureAt time.seconds
  | slab l =>
    let value := l.temperatureAt time.seconds
    if isFinite value then .ok ⟨value⟩ else .error (.nonFinite time.seconds)
  | linear l => .ok ⟨l.temperatureAt time.seconds⟩

end SurfaceHistory

/-- The temperature of grains at an orbit, which the surface heats from a distance. -/
def grainTemperature (surface : Temperature α) (radius : Length α) (absorption : α) :
    Temperature α :=
  surface * (pow absorption 0.25 * sqrt (marsRadius / (2.0 * radius.metres)))

end DebrisDisk
