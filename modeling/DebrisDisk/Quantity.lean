import DebrisDisk.Scalar

/-!
# Physical quantities

A `Quantity d α` is a number of base units of the dimension `d`. Quantities of one dimension add and
subtract, a number scales them, and the quotient of two of one dimension is a plain number. The base
units are the metre, kilogram, second, kelvin, pascal and their products. Plain numbers are in these
units too, unless a name or a comment gives another one.

Each dimension has constructors and views for the units in which disk parameters are quoted: grain
sizes in microns, orbits in Mars radii, disk masses in Mars masses, horizons in Julian years.

## Main definitions

* `Length`, `Mass`, `Time`, `Temperature`, `Pressure`, `Density`, `SurfaceDensity`, `Velocity`,
  `AngularVelocity`.
-/

namespace DebrisDisk
open Scalar

/-- What a quantity measures. -/
inductive Dimension where
  | length
  | mass
  | time
  | temperature
  | pressure
  | density
  | surfaceDensity
  | velocity
  | angularVelocity
  deriving DecidableEq, Repr

/-- A number of base units of one dimension. -/
structure Quantity (d : Dimension) (α : Type) where
  base : α
  deriving DecidableEq, Repr

/-- A length, held in metres. -/
abbrev Length (α : Type) := Quantity .length α
/-- A mass, held in kilograms. -/
abbrev Mass (α : Type) := Quantity .mass α
/-- A time, held in seconds. -/
abbrev Time (α : Type) := Quantity .time α
/-- A temperature, held in kelvin. -/
abbrev Temperature (α : Type) := Quantity .temperature α
/-- A pressure, held in pascals. -/
abbrev Pressure (α : Type) := Quantity .pressure α
/-- A volume density, held in kilograms per cubic metre. -/
abbrev Density (α : Type) := Quantity .density α
/-- A surface density, held in kilograms per square metre. -/
abbrev SurfaceDensity (α : Type) := Quantity .surfaceDensity α
/-- A velocity, held in metres per second. -/
abbrev Velocity (α : Type) := Quantity .velocity α
/-- An angular velocity, held in radians per second. -/
abbrev AngularVelocity (α : Type) := Quantity .angularVelocity α

/-- Mean radius of Mars in metres. -/
def marsRadius {α : Type} [Scalar α] : α := 3.3895e6

/-- Mass of Mars in kilograms. -/
def marsMass {α : Type} [Scalar α] : α := 6.4171e23

namespace Quantity
variable {d : Dimension} {α : Type}

@[ext] theorem ext {x y : Quantity d α} (h : x.base = y.base) : x = y := by
  cases x; cases y
  exact congrArg Quantity.mk h

/-! ## Arithmetic -/

section Arithmetic
variable [Scalar α]

instance : Zero (Quantity d α) := ⟨⟨0⟩⟩
instance : Add (Quantity d α) := ⟨fun x y => ⟨x.base + y.base⟩⟩
instance : Sub (Quantity d α) := ⟨fun x y => ⟨x.base - y.base⟩⟩
instance : HMul (Quantity d α) α (Quantity d α) := ⟨fun x c => ⟨x.base * c⟩⟩
instance : HMul α (Quantity d α) (Quantity d α) := ⟨fun c x => ⟨x.base * c⟩⟩
instance : HDiv (Quantity d α) α (Quantity d α) := ⟨fun x c => ⟨x.base / c⟩⟩
instance : HDiv (Quantity d α) (Quantity d α) α := ⟨fun x y => x.base / y.base⟩

@[simp] theorem base_zero : (0 : Quantity d α).base = 0 := rfl
@[simp] theorem base_add (x y : Quantity d α) : (x + y).base = x.base + y.base := rfl
@[simp] theorem base_sub (x y : Quantity d α) : (x - y).base = x.base - y.base := rfl
@[simp] theorem base_mul (x : Quantity d α) (c : α) : (x * c).base = x.base * c := rfl
@[simp] theorem base_smul (c : α) (x : Quantity d α) : (c * x).base = x.base * c := rfl
@[simp] theorem base_div (x : Quantity d α) (c : α) : (x / c).base = x.base / c := rfl
@[simp] theorem div_eq (x y : Quantity d α) : (x / y : α) = x.base / y.base := rfl

/-- The first quantity unless the second is smaller. -/
def least (x y : Quantity d α) : Quantity d α := if x.base ≤ y.base then x else y

/-- The first quantity unless the second is greater. -/
def greatest (x y : Quantity d α) : Quantity d α := if y.base ≤ x.base then x else y

/-- Whole power of the number of base units. -/
def powi (x : Quantity d α) (n : Int) : α := Scalar.powi x.base n

/-- Real power of the number of base units. -/
def powf (x : Quantity d α) (y : α) : α := Scalar.pow x.base y

/-- Natural logarithm of the number of base units. -/
def ln (x : Quantity d α) : α := Scalar.ln x.base

/-- The quantity is zero. -/
def isZero (x : Quantity d α) : Bool := Scalar.isZero x.base

/-- The quantity is neither infinite nor undefined. -/
def isFinite (x : Quantity d α) : Bool := Scalar.isFinite x.base

/-- The sum of a list of quantities, taken from the left. -/
def total (xs : List (Quantity d α)) : Quantity d α := xs.foldl (· + ·) 0

end Arithmetic

/-! ## Base units -/

/-- The length in metres. -/
abbrev metres (x : Length α) : α := x.base
/-- The mass in kilograms. -/
abbrev kilograms (x : Mass α) : α := x.base
/-- The time in seconds. -/
abbrev seconds (x : Time α) : α := x.base
/-- The temperature in kelvin. -/
abbrev kelvin (x : Temperature α) : α := x.base
/-- The pressure in pascals. -/
abbrev pascals (x : Pressure α) : α := x.base
/-- The density in kilograms per cubic metre. -/
abbrev kgPerM3 (x : Density α) : α := x.base
/-- The surface density in kilograms per square metre. -/
abbrev kgPerM2 (x : SurfaceDensity α) : α := x.base
/-- The velocity in metres per second. -/
abbrev metresPerSecond (x : Velocity α) : α := x.base
/-- The angular velocity in radians per second. -/
abbrev radiansPerSecond (x : AngularVelocity α) : α := x.base

/-! ## Other units -/

section Views
variable [Scalar α]

/-- The length in kilometres. -/
def kilometres (x : Length α) : α := x.base / 1e3
/-- The length in microns. -/
def microns (x : Length α) : α := x.base / 1e-6
/-- The length in Mars radii. -/
def marsRadii (x : Length α) : α := x.base / marsRadius
/-- The mass in grams. -/
def grams (x : Mass α) : α := x.base * 1e3
/-- The mass in Mars masses. -/
def marsMasses (x : Mass α) : α := x.base / marsMass
/-- The time in hours. -/
def hours (x : Time α) : α := x.base / 3600.0
/-- The time in days. -/
def days (x : Time α) : α := x.base / 86400.0
/-- The time in Julian years. -/
def years (x : Time α) : α := x.base / 31557600.0
/-- The temperature in degrees Celsius. -/
def celsius (x : Temperature α) : α := x.base - 273.15
/-- The pressure in bar. -/
def bars (x : Pressure α) : α := x.base / 1e5
/-- The density in grams per cubic centimetre. -/
def gramsPerCm3 (x : Density α) : α := x.base / 1e3
/-- The surface density in grams per square centimetre. -/
def gramsPerCm2 (x : SurfaceDensity α) : α := x.base / 10.0
/-- The velocity in kilometres per second. -/
def kilometresPerSecond (x : Velocity α) : α := x.base / 1e3

/-- The time of one turn. -/
def period (x : AngularVelocity α) : Time α := ⟨tau / x.base⟩

end Views
end Quantity

variable {α : Type} [Scalar α]

/-- A length from kilometres. -/
def Length.ofKilometres (x : α) : Length α := ⟨x * 1e3⟩
/-- A length from microns. -/
def Length.ofMicrons (x : α) : Length α := ⟨x * 1e-6⟩
/-- A length from Mars radii. -/
def Length.ofMarsRadii (x : α) : Length α := ⟨x * marsRadius⟩
/-- A mass from grams. -/
def Mass.ofGrams (x : α) : Mass α := ⟨x / 1e3⟩
/-- A mass from Mars masses. -/
def Mass.ofMarsMasses (x : α) : Mass α := ⟨x * marsMass⟩
/-- A time from hours. -/
def Time.ofHours (x : α) : Time α := ⟨x * 3600.0⟩
/-- A time from days. -/
def Time.ofDays (x : α) : Time α := ⟨x * 86400.0⟩
/-- A time from Julian years. -/
def Time.ofYears (x : α) : Time α := ⟨x * 31557600.0⟩
/-- A temperature from degrees Celsius. -/
def Temperature.ofCelsius (x : α) : Temperature α := ⟨x + 273.15⟩
/-- A pressure from bar. -/
def Pressure.ofBars (x : α) : Pressure α := ⟨x * 1e5⟩
/-- A density from grams per cubic centimetre. -/
def Density.ofGramsPerCm3 (x : α) : Density α := ⟨x * 1e3⟩
/-- A surface density from grams per square centimetre. -/
def SurfaceDensity.ofGramsPerCm2 (x : α) : SurfaceDensity α := ⟨x * 10.0⟩
/-- A mass spread evenly over an area in square metres. -/
def SurfaceDensity.ofMassOverArea (mass : Mass α) (area : α) : SurfaceDensity α :=
  ⟨mass.base / area⟩
/-- A velocity from kilometres per second. -/
def Velocity.ofKilometresPerSecond (x : α) : Velocity α := ⟨x * 1e3⟩

end DebrisDisk
