/-!
# Scalars

The disk model is written once over an arbitrary carrier of numbers. `Scalar` names the operations
that the formulas use; it asks for no laws, so the binary64 numbers of `DebrisDisk.Scalar.Binary64`
are an instance, and so is any carrier of exact numbers.

The operations that follow from comparisons alone are defined here for every carrier: the lesser and
greater of two numbers, clamping, absolute value and whole powers. Each is written so that a value
which does not compare with itself (not a number) is treated as the binary64 standard asks.
-/

namespace DebrisDisk

/-- Numbers with the arithmetic, the comparisons and the elementary functions of the disk model. -/
class Scalar (α : Type) extends Zero α, One α, Add α, Sub α, Mul α, Div α, Neg α, LT α, LE α,
    OfScientific α where
  decLT : DecidableLT α
  decLE : DecidableLE α
  /-- The number nearest to a count. -/
  ofNat : Nat → α
  /-- The whole part as a count, from zero up to the largest 64-bit word. -/
  toCount : α → Nat
  ceil : α → α
  /-- Neither infinite nor undefined. -/
  isFinite : α → Bool
  sqrt : α → α
  cbrt : α → α
  exp : α → α
  /-- `exp x - 1`, without the loss of digits near zero. -/
  expm1 : α → α
  ln : α → α
  cos : α → α
  pow : α → α → α

namespace Scalar
variable {α : Type} [Scalar α]

instance : DecidableLT α := Scalar.decLT
instance : DecidableLE α := Scalar.decLE

/-- Half the circumference of the unit circle. -/
def pi : α := 3.141592653589793

/-- A whole turn in radians. -/
def tau : α := 6.283185307179586

/-- The number is undefined: it does not even compare with itself. -/
def isNaN (x : α) : Bool := !decide (x ≤ x)

/-- The lesser of two numbers; the other one when one is undefined. -/
def fmin (x y : α) : α := if x < y then x else if isNaN y then x else y

/-- The greater of two numbers; the other one when one is undefined. -/
def fmax (x y : α) : α := if y < x then x else if isNaN y then x else y

/-- The nearest number between the two bounds; an undefined number stays undefined. -/
def clamp (x lo hi : α) : α := if x < lo then lo else if hi < x then hi else x

/-- The number without its sign. -/
def magnitude (x : α) : α := if x < 0 then -x else x

/-- The number is zero, of either sign. -/
def isZero (x : α) : Bool := decide (x ≤ 0) && decide (0 ≤ x)

/-- The number is positive and finite. -/
def isPositive (x : α) : Bool := decide (0 < x) && isFinite x

/-- The number is at least zero and finite. -/
def isNonneg (x : α) : Bool := decide (0 ≤ x) && isFinite x

/-- The sum of a list, taken from the left. -/
def sum (xs : List α) : α := xs.foldl (· + ·) 0

@[simp] theorem sum_nil : sum ([] : List α) = 0 := rfl

/-- Multiplies `acc` by `x ^ n`: one squaring for each binary digit of `n`. -/
def powAcc (acc x : α) (n : Nat) : α :=
  let acc := if n % 2 = 1 then acc * x else acc
  if n / 2 = 0 then acc else powAcc acc (x * x) (n / 2)
termination_by n
decreasing_by omega

/-- Whole power by repeated squaring; a negative exponent takes the reciprocal at the end. -/
def powi (x : α) (n : Int) : α :=
  let p := powAcc 1 x n.natAbs
  if n < 0 then 1 / p else p

end Scalar
end DebrisDisk
