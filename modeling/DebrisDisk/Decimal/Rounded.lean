import DebrisDisk.Decimal.BinaryValue

/-!
# Rounded decimal texts

Two texts of a number with a chosen count of decimals: positional (`fixed`) and with one digit
before the point and a power of ten after it (`scientific`). Both round the exact value, and a value
halfway between two texts goes to the one whose last digit is even.

## Main definitions

* `roundDiv`: a quotient of natural numbers rounded to the nearest whole number, ties to even.
* `tenPow`: the powers of ten.
* `magnitude10`: the power of ten that starts the decimal text of a quotient.
* `fixed`, `scientific`: the two texts.
-/

namespace DebrisDisk.Decimal

/-- The whole number nearest to `num / den`; a tie goes to the even one. -/
def roundDiv (num den : Nat) : Nat :=
  let q := num / den
  let r := num % den
  if 2 * r < den then q
  else if den < 2 * r then q + 1
  else if q % 2 = 0 then q else q + 1

/-- The power of ten with the given exponent. -/
def tenPow (k : Nat) : Nat := Nat.pow 10 k

/-- The decimal digits of a natural number. -/
def digits (n : Nat) : List Char := Nat.toDigits 10 n

/-- The digits of `n`, with zeros in front up to the given width. -/
def padded (width n : Nat) : List Char :=
  let ds := digits n
  List.replicate (width - ds.length) '0' ++ ds

/-- The least count of places by which the point moves right until `num / den` reaches one. -/
def leadingPlaces : (fuel num den : Nat) → Nat
  | 0, _, _ => 0
  | fuel + 1, num, den => if den ≤ num then 0 else leadingPlaces fuel (10 * num) den + 1

/-- The exponent `e` with `10 ^ e ≤ num / den < 10 ^ (e + 1)`, for a positive quotient. -/
def magnitude10 (num den : Nat) : Int :=
  if den ≤ num then Int.ofNat (digits (num / den)).length - 1
  else -Int.ofNat (leadingPlaces den.log2 num den)

/-- `num / den` times `10 ^ e` as a quotient of natural numbers. -/
def shifted (num den : Nat) (e : Int) : Nat × Nat :=
  if 0 ≤ e then (num * tenPow e.toNat, den) else (num, den * tenPow (-e).toNat)

/-- A minus sign for negative numbers, zero included. -/
def sign (negative : Bool) : String := if negative then "-" else ""

/-- Positional text with the given count of decimals. -/
def fixed (places : Nat) : BinaryValue → String
  | .nan => "NaN"
  | .infinite negative => sign negative ++ "inf"
  | .finite negative m q =>
    let (num, den) := BinaryValue.quotient m q
    let whole := roundDiv (num * tenPow places) den
    let ds := padded (places + 1) whole
    let front := ds.take (ds.length - places)
    let back := ds.drop (ds.length - places)
    sign negative ++ String.ofList (if places = 0 then front else front ++ '.' :: back)

/-- The significant digits, as a whole number with `places + 1` digits, and the power of ten. -/
def significant (places num den : Nat) : Nat × Int :=
  if num = 0 then (0, 0)
  else
    let e := magnitude10 num den
    let (a, b) := shifted num den (Int.ofNat places - e)
    let whole := roundDiv a b
    if whole = tenPow (places + 1) then (tenPow places, e + 1) else (whole, e)

/-- One digit, the given count of decimals, and the power of ten after an `e`. -/
def scientific (places : Nat) : BinaryValue → String
  | .nan => "NaN"
  | .infinite negative => sign negative ++ "inf"
  | .finite negative m q =>
    let (num, den) := BinaryValue.quotient m q
    let (whole, e) := significant places num den
    let ds := padded (places + 1) whole
    let front := ds.take 1
    let back := ds.drop 1
    sign negative ++ String.ofList (if places = 0 then front else front ++ '.' :: back)
      ++ "e" ++ toString e

end DebrisDisk.Decimal
