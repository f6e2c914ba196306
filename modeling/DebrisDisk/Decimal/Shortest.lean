import DebrisDisk.Decimal.Rounded

/-!
# Shortest decimal texts

The shortest text of a binary64 number has the fewest digits that read back as that number; among
those, it is the nearest to the exact value, and of two equally near the greater. It is written
positionally whatever the magnitude, with no point after a whole number.

The numbers that read back as `m * 2 ^ q` form an interval around it: half a unit up, half a unit
down, or a quarter where the unit changes. The ends belong to it when `m` is even. For each count of
digits the two neighbours of the value on the decimal grid are tested, so the first hit is shortest.
-/

namespace DebrisDisk.Decimal

/-- The numbers that read back as one binary number, all over one denominator. -/
structure ReadBack where
  low : Nat
  value : Nat
  high : Nat
  den : Nat
  /-- The ends themselves read back as the number. -/
  closed : Bool

namespace ReadBack

/-- The interval around `m * 2 ^ q`, in quarters of the last unit. -/
def of (m : Nat) (q : Int) : ReadBack :=
  let down := if m = BinaryValue.leadingBit ∧ -1074 < q then 1 else 2
  let (unit, den) := BinaryValue.quotient 1 (q - 2)
  { low := (4 * m - down) * unit, value := 4 * m * unit, high := (4 * m + 2) * unit, den
    closed := m % 2 = 0 }

/-- Whether the quotient `num / den` reads back as the number. -/
def contains (r : ReadBack) (num den : Nat) : Bool :=
  let x := num * r.den
  if r.closed then r.low * den ≤ x && x ≤ r.high * den else r.low * den < x && x < r.high * den

/-- The nearest of the value's two neighbours on the grid of `10 ^ e` that read back. -/
def onGrid (r : ReadBack) (e : Int) : Option Nat :=
  let (num, den) := shifted r.value r.den (-e)
  let below := num / den
  let reads (n : Nat) : Bool := let (a, b) := shifted n 1 e; r.contains a b
  match reads below, reads (below + 1) with
  | true, true => some (if 2 * (num % den) < den then below else below + 1)
  | true, false => some below
  | false, true => some (below + 1)
  | false, false => none

/-- The first grid with a hit, going to finer grids. -/
def firstHit (r : ReadBack) : (fuel : Nat) → (e : Int) → Nat × Int
  | 0, e => (r.value / r.den, e)
  | fuel + 1, e =>
    match r.onGrid e with
    | some n => (n, e)
    | none => firstHit r fuel (e - 1)

end ReadBack

/-- The digits and the power of ten of the shortest text of `m * 2 ^ q`. -/
def shortestDigits (m : Nat) (q : Int) : Nat × Int :=
  let r := ReadBack.of m q
  r.firstHit 17 (magnitude10 r.value r.den)

/-- `n * 10 ^ e` written out, without trailing zeros after the point. -/
def positional (n : Nat) (e : Int) : List Char :=
  if 0 ≤ e then digits (n * tenPow e.toNat)
  else
    let places := (-e).toNat
    let ds := padded (places + 1) n
    let front := ds.take (ds.length - places)
    let back := ((ds.drop (ds.length - places)).reverse.dropWhile (· == '0')).reverse
    if back.isEmpty then front else front ++ '.' :: back

/-- The shortest positional text. -/
def shortest : BinaryValue → String
  | .nan => "NaN"
  | .infinite negative => sign negative ++ "inf"
  | .finite negative m q =>
    if m = 0 then sign negative ++ "0"
    else
      let (n, e) := shortestDigits m q
      sign negative ++ String.ofList (positional n e)

end DebrisDisk.Decimal
