import DebrisDisk.Document

/-!
# Numbers in documents

A number literal is read in two steps. Its digits are collected into a whole number of at most 64
bits: further digits before the point only raise the power of ten, further digits after it are
dropped. Then the whole number is scaled, by one product or quotient with a power of ten. So a
literal is rounded at most three times, and a result beyond the largest number is a fault.
-/

namespace DebrisDisk.Document
open Scalar

/-- A number literal taken apart. -/
structure Numeral where
  negative : Bool
  front : List Nat
  fraction : Option (List Nat)
  /-- The sign and the digits of the exponent, if it has one. -/
  exponent : Option (Bool × List Nat)
  deriving Repr

namespace Numeral

/-- The greatest 64-bit word. -/
def wordLimit : Nat := UInt64.size - 1

/-- The least exponent that no longer fits a signed 32-bit word. -/
def exponentLimit : Nat := 0x80000000

/-- The value of a list of digits. -/
def value (ds : List Nat) : Nat := ds.foldl (fun n d => 10 * n + d) 0

/-- Collects the digits before the point: the number so far and the count of digits left out. -/
def collectFront : (n : Nat) → List Nat → Nat × Nat
  | n, [] => (n, 0)
  | n, d :: ds =>
    if 10 * n + d ≤ wordLimit then collectFront (10 * n + d) ds else (n, ds.length + 1)

/-- Collects the digits after the point: the number so far and the count of digits taken in. -/
def collectFraction : (n : Nat) → List Nat → Nat × Nat
  | n, [] => (n, 0)
  | n, d :: ds =>
    if 10 * n + d ≤ wordLimit then
      let (m, k) := collectFraction (10 * n + d) ds
      (m, k + 1)
    else (n, 0)

variable {α : Type} [Scalar α]

/-- `x` times `10 ^ e`, absent beyond the largest number. -/
def scale (x : α) (e : Int) : Option α :=
  if e.natAbs ≤ 308 then
    if 0 ≤ e then
      let y := x * OfScientific.ofScientific 1 false e.toNat
      if isFinite y then some y else none
    else some (x / OfScientific.ofScientific 1 false (-e).toNat)
  else if isZero x then some x
  else if 0 ≤ e then none
  else scale (x / 1e308) (e + 308)
termination_by e.natAbs
decreasing_by omega

/-- The magnitude of the literal, absent beyond the largest number. -/
def magnitude? (l : Numeral) : Option α :=
  let (n, dropped) := collectFront 0 l.front
  let (m, taken) := collectFraction n (l.fraction.getD [])
  let start : Int := dropped - taken
  match l.exponent with
  | none => scale (ofNat m) start
  | some (negative, ds) =>
    if exponentLimit ≤ value ds then
      if m ≠ 0 && !negative then none else some 0
    else scale (ofNat m) (if negative then start - value ds else start + value ds)

/-- The document of a literal. -/
def document (l : Numeral) : Document α :=
  let plain := l.fraction.isNone && l.exponent.isNone
  if plain && value l.front ≤ wordLimit then
    if l.negative then .real (-(ofNat (value l.front))) else .whole (value l.front)
  else
    match magnitude? l with
    | some x => .real (if l.negative then -x else x)
    | none => .broken { expected := .malformed, skipped := none, strict := .malformed }

end Numeral

/-! ## The text of a number -/

/-- The digits that a text starts with, and the rest. -/
def spanDigits : List Char → List Nat × List Char
  | [] => ([], [])
  | c :: cs =>
    if c.isDigit then
      let (ds, rest) := spanDigits cs
      ((c.toNat - '0'.toNat) :: ds, rest)
    else ([], c :: cs)

/-- The fault of a number that lacks a digit where the text goes on with `rest`. -/
def missingDigit (rest : List Char) : Break :=
  { expected := if rest.isEmpty then .ended else .malformed, skipped := some .malformed
    strict := .malformed }

/-- Reads the exponent of a number. -/
def readExponent : List Char → Except Break (Option (Bool × List Nat) × List Char)
  | c :: cs =>
    if c == 'e' || c == 'E' then
      let (negative, cs) := match cs with
        | '-' :: r => (true, r)
        | '+' :: r => (false, r)
        | r => (false, r)
      match spanDigits cs with
      | ([], rest) => .error (missingDigit rest)
      | (ds, rest) => .ok (some (negative, ds), rest)
    else .ok (none, c :: cs)
  | [] => .ok (none, [])

/-- Reads the digits after the point of a number. -/
def readFraction : List Char → Except Break (Option (List Nat) × List Char)
  | '.' :: cs =>
    match spanDigits cs with
    | ([], rest) => .error (missingDigit rest)
    | (ds, rest) => .ok (some ds, rest)
  | cs => .ok (none, cs)

/-- Reads a number; a zero in front of further digits is a fault. -/
def readNumeral (cs : List Char) : Except Break (Numeral × List Char) := do
  let (negative, cs) := match cs with
    | '-' :: r => (true, r)
    | r => (false, r)
  match spanDigits cs with
  | ([], rest) => throw (missingDigit rest)
  | (0 :: _ :: _, _) => throw (Break.always .malformed)
  | (front, rest) =>
    let (fraction, rest) ← readFraction rest
    let (exponent, rest) ← readExponent rest
    return ({ negative, front, fraction, exponent }, rest)

end DebrisDisk.Document
