import DebrisDisk.Scalar

/-!
# Binary64 scalars

The numbers a program computes with. Sums, products, quotients and comparisons are those of the
standard; the elementary functions are accurate to about one unit in the last place.
-/

namespace DebrisDisk.Scalar.Binary64

/-- The coefficients `1/2!, 1/3!, …` of `(exp x - 1 - x) / x²` up to `1/18!`. -/
def tailCoefficients : List Float :=
  (List.range 17).foldl
    (fun done k => match done with
      | [] => [0.5]
      | c :: _ => c / Float.ofNat (k + 2) :: done) []

/-- `(exp x - 1 - x) / x²` by its power series, for `x` near zero. -/
def tail (x : Float) : Float := tailCoefficients.foldl (fun acc c => c + x * acc) 0.0

/-- `exp x - 1`: the power series near zero, the difference elsewhere. -/
def expm1 (x : Float) : Float :=
  if x.abs ≤ 0.5 then
    if x == 0.0 then x else x + x * x * tail x
  else Float.exp x - 1.0

end DebrisDisk.Scalar.Binary64

namespace DebrisDisk.Scalar

instance : Scalar Float where
  zero := 0.0
  one := 1.0
  decLT := inferInstance
  decLE := inferInstance
  ofNat := Float.ofNat
  toCount x := x.toUInt64.toNat
  ceil := Float.ceil
  isFinite := Float.isFinite
  sqrt := Float.sqrt
  cbrt := Float.cbrt
  exp := Float.exp
  expm1 := Binary64.expm1
  ln := Float.log
  cos := Float.cos
  pow := Float.pow

end DebrisDisk.Scalar
