import Mathlib
import DebrisDisk.Scalar

/-!
# Rounded numbers with special values

A rounded number has a sign and a magnitude, which may be infinite, or it is undefined. Every result
is the exact one, rounded to a magnitude that the format holds. A result that is too large becomes
infinite, and an operation without a result is undefined: `∞ - ∞`, `0 * ∞`, `0 / 0`, `∞ / ∞`, the
root or the logarithm of a negative number. Zero has two signs, which are told apart by division
alone. An undefined number is in no relation to any number, itself included.

Of a rounding only the order counts here. It keeps the order of magnitudes, and it keeps zero, one
and infinity. Binary64 with rounding to the nearest number is of this kind.

## Main definitions

* `Rounding`, `Rounding.Magnitude`, `Rounded`.
* `Rounded.size`: the magnitude of a number.

## Main results

* `Rounded.le_iff_value`, `Rounded.lt_iff_value`: defined numbers are compared by their values.
* `Rounded.le_iff_size`, `Rounded.lt_iff_size`: numbers that are not negative, by their magnitudes.
-/

namespace DebrisDisk
open scoped ENNReal

/-- How magnitudes are rounded to those of a format. -/
structure Rounding where
  round : ℝ≥0∞ → ℝ≥0∞
  monotone : Monotone round
  round_round : ∀ x, round (round x) = round x
  round_zero : round 0 = 0
  round_one : round 1 = 1
  round_top : round ⊤ = ⊤

namespace Rounding

/-- A magnitude that the format holds. -/
structure Magnitude (R : Rounding) where
  val : ℝ≥0∞
  held : R.round val = val

/-- The magnitude of the format that stands for an exact one. -/
def fit (R : Rounding) (x : ℝ≥0∞) : R.Magnitude := ⟨R.round x, R.round_round x⟩

@[simp] theorem fit_val (R : Rounding) (x : ℝ≥0∞) : (R.fit x).val = R.round x := rfl

@[simp] theorem round_val {R : Rounding} (a : R.Magnitude) : R.round a.val = a.val := a.held

@[simp] theorem fit_of_val {R : Rounding} (a : R.Magnitude) : R.fit a.val = a := by
  simp [fit]

attribute [simp] round_zero round_one round_top

end Rounding

/-- A number of a format: undefined, or a sign with a magnitude. -/
inductive Rounded (R : Rounding) where
  | nan
  | num (negative : Bool) (size : R.Magnitude)

namespace Rounded
variable {R : Rounding}

@[simp] theorem num_ne_nan {s : Bool} {a : R.Magnitude} : num s a ≠ nan := nofun

/-- The magnitude. -/
def size : Rounded R → ℝ≥0∞
  | nan => 0
  | num _ x => x.val

/-- The value, for numbers that have one. -/
noncomputable def value : Rounded R → EReal
  | nan => 0
  | num false x => (x.val : EReal)
  | num true x => -(x.val : EReal)

/-- The number that stands for an exact magnitude. -/
def ofSize (x : ℝ≥0∞) : Rounded R := num false (R.fit x)

open Classical in
/-- The number that stands for an exact value. -/
noncomputable def ofValue (v : EReal) : Rounded R :=
  if v < 0 then num true (R.fit (-v).toENNReal) else num false (R.fit v.toENNReal)

/-! ## Operations -/

open Classical in
/-- The sum; numbers of opposite sign cancel to a positive zero. -/
noncomputable def add : Rounded R → Rounded R → Rounded R
  | num s x, num t y =>
    if s = t then num s (R.fit (x.val + y.val))
    else if x.val = ⊤ ∧ y.val = ⊤ then nan
    else if y.val < x.val then num s (R.fit (x.val - y.val))
    else if x.val < y.val then num t (R.fit (y.val - x.val))
    else num false (R.fit 0)
  | _, _ => nan

/-- The number with the other sign. -/
def neg : Rounded R → Rounded R
  | num s x => num (!s) x
  | nan => nan

open Classical in
/-- The product. -/
noncomputable def mul : Rounded R → Rounded R → Rounded R
  | num s x, num t y =>
    if (x.val = 0 ∧ y.val = ⊤) ∨ (x.val = ⊤ ∧ y.val = 0) then nan
    else num (s ^^ t) (R.fit (x.val * y.val))
  | _, _ => nan

open Classical in
/-- The quotient; one by zero is infinite. -/
noncomputable def div : Rounded R → Rounded R → Rounded R
  | num s x, num t y =>
    if (x.val = 0 ∧ y.val = 0) ∨ (x.val = ⊤ ∧ y.val = ⊤) then nan
    else num (s ^^ t) (R.fit (x.val / y.val))
  | _, _ => nan

/-- The first number is less. -/
def Less : Rounded R → Rounded R → Prop
  | num s x, num t y => (num s x).value < (num t y).value
  | _, _ => False

/-- The first number is not greater. -/
def AtMost : Rounded R → Rounded R → Prop
  | num s x, num t y => (num s x).value ≤ (num t y).value
  | _, _ => False

open Classical in
/-- The square root. -/
noncomputable def sqrt : Rounded R → Rounded R
  | num s x => if s = true ∧ x.val ≠ 0 then nan else num s (R.fit (x.val ^ (0.5 : ℝ)))
  | nan => nan

/-- The cube root. -/
noncomputable def cbrt : Rounded R → Rounded R
  | num s x => num s (R.fit (x.val ^ (1 / 3.0 : ℝ)))
  | nan => nan

/-- The exponential function. -/
noncomputable def exp : Rounded R → Rounded R
  | num s x => ofSize (EReal.exp (num s x).value)
  | nan => nan

open Classical in
/-- The exponential function less one, which keeps a zero. -/
noncomputable def expm1 : Rounded R → Rounded R
  | num s x =>
    if x.val = 0 then num s x else ofValue ((EReal.exp (num s x).value : EReal) - 1)
  | nan => nan

open Classical in
/-- The natural logarithm. -/
noncomputable def ln : Rounded R → Rounded R
  | num s x => if s = true ∧ x.val ≠ 0 then nan else ofValue (ENNReal.log x.val)
  | nan => nan

open Classical in
/-- The cosine of a finite number. -/
noncomputable def cos : Rounded R → Rounded R
  | num s x => if x.val = ⊤ then nan else ofValue (Real.cos (num s x).value.toReal : EReal)
  | nan => nan

open Classical in
/-- The power of a magnitude, also to an infinite exponent. -/
noncomputable def power (x : ℝ≥0∞) (y : EReal) : ℝ≥0∞ :=
  if y = ⊤ then (if x < 1 then 0 else if x = 1 then 1 else ⊤)
  else if y = ⊥ then (if x < 1 then ⊤ else if x = 1 then 1 else 0)
  else x ^ y.toReal

open Classical in
/-- The power. The exponent zero and the base one give one, even beside an undefined number; a
finite negative base asks for a whole exponent, and its sign survives an odd one. -/
noncomputable def pow (x y : Rounded R) : Rounded R :=
  match x, y with
  | _, num t y =>
    if y.val = 0 then ofSize 1
    else match x with
      | nan => nan
      | num s x =>
        let exponent := (num t y).value
        let whole := y.val = ⊤ ∨ ∃ n : ℤ, exponent = (n : ℝ)
        let odd := ∃ n : ℤ, Odd n ∧ exponent = (n : ℝ)
        if s = true ∧ x.val ≠ 0 ∧ x.val ≠ ⊤ ∧ ¬ whole then nan
        else num (s && decide odd) (R.fit (power x.val exponent))
  | num s x, nan => if s = false ∧ x.val = 1 then ofSize 1 else nan
  | nan, nan => nan

/-- The least whole number that is not below the argument. -/
noncomputable def ceil : Rounded R → Rounded R
  | num false x => num false (R.fit (if x.val = ⊤ then ⊤ else ⌈x.val.toNNReal⌉₊))
  | num true x => num true (R.fit (if x.val = ⊤ then ⊤ else ⌊x.val.toNNReal⌋₊))
  | nan => nan

/-- The whole part as a count, up to the largest 64-bit word. -/
noncomputable def toCount : Rounded R → ℕ
  | num false x => if x.val = ⊤ then 2 ^ 64 - 1 else min ⌊x.val.toNNReal⌋₊ (2 ^ 64 - 1)
  | _ => 0

noncomputable instance : Scalar (Rounded R) where
  zero := ofSize 0
  one := ofSize 1
  add := add
  sub x y := add x (neg y)
  mul := mul
  div := div
  neg := neg
  lt := Less
  le := AtMost
  ofScientific m s e := ofSize (ENNReal.ofReal (OfScientific.ofScientific m s e))
  decLT := Classical.decRel _
  decLE := Classical.decRel _
  ofNat n := ofSize n
  toCount := toCount
  ceil := ceil
  isFinite
    | num _ x => decide (x.val ≠ ⊤)
    | nan => false
  sqrt := sqrt
  cbrt := cbrt
  exp := exp
  expm1 := expm1
  ln := ln
  cos := cos
  pow := pow

open Scalar

/-! ## Order -/

section Order
variable {x y z : Rounded R}

theorem ne_nan_of_le (h : x ≤ y) : x ≠ nan ∧ y ≠ nan := by
  cases x with
  | nan => exact h.elim
  | num s a =>
    cases y with
    | nan => exact h.elim
    | num t b => exact ⟨num_ne_nan, num_ne_nan⟩

theorem ne_nan_of_lt (h : x < y) : x ≠ nan ∧ y ≠ nan := by
  cases x with
  | nan => exact h.elim
  | num s a =>
    cases y with
    | nan => exact h.elim
    | num t b => exact ⟨num_ne_nan, num_ne_nan⟩

theorem le_iff_value (hx : x ≠ nan) (hy : y ≠ nan) : x ≤ y ↔ x.value ≤ y.value := by
  cases x with
  | nan => exact absurd rfl hx
  | num s a =>
    cases y with
    | nan => exact absurd rfl hy
    | num t b => exact Iff.rfl

theorem lt_iff_value (hx : x ≠ nan) (hy : y ≠ nan) : x < y ↔ x.value < y.value := by
  cases x with
  | nan => exact absurd rfl hx
  | num s a =>
    cases y with
    | nan => exact absurd rfl hy
    | num t b => exact Iff.rfl

theorem le_self (h : x ≠ nan) : x ≤ x := (le_iff_value h h).mpr le_rfl

theorem not_lt_iff (hx : x ≠ nan) (hy : y ≠ nan) : ¬ x < y ↔ y ≤ x := by
  rw [lt_iff_value hx hy, le_iff_value hy hx, not_lt]

theorem not_le_iff (hx : x ≠ nan) (hy : y ≠ nan) : ¬ x ≤ y ↔ y < x := by
  rw [lt_iff_value hy hx, le_iff_value hx hy, not_le]

theorem le_of_lt (h : x < y) : x ≤ y := by
  obtain ⟨hx, hy⟩ := ne_nan_of_lt h
  rw [lt_iff_value hx hy] at h
  exact (le_iff_value hx hy).mpr h.le

theorem le_trans (h : x ≤ y) (h' : y ≤ z) : x ≤ z := by
  obtain ⟨hx, hy⟩ := ne_nan_of_le h
  have hz := (ne_nan_of_le h').2
  rw [le_iff_value hx hy] at h
  rw [le_iff_value hy hz] at h'
  exact (le_iff_value hx hz).mpr (h.trans h')

theorem lt_of_lt_of_le (h : x < y) (h' : y ≤ z) : x < z := by
  obtain ⟨hx, hy⟩ := ne_nan_of_lt h
  have hz := (ne_nan_of_le h').2
  rw [lt_iff_value hx hy] at h
  rw [le_iff_value hy hz] at h'
  exact (lt_iff_value hx hz).mpr (h.trans_le h')

@[simp] theorem isNaN_iff : isNaN x = true ↔ x = nan := by
  constructor
  · intro h
    by_contra defined
    simp [isNaN, le_self defined] at h
  · rintro rfl
    simp only [isNaN, Bool.not_eq_true', decide_eq_false_iff_not]
    exact fun h => h.elim

end Order

/-! ## Magnitudes -/

section Sizes
variable {x y : Rounded R}

theorem round_size (x : Rounded R) : R.round x.size = x.size := by
  cases x with
  | nan => exact R.round_zero
  | num s a => exact a.held

@[simp] theorem size_zero : (0 : Rounded R).size = 0 := R.round_zero

@[simp] theorem size_one : (1 : Rounded R).size = 1 := R.round_one

@[simp] theorem zero_ne_nan : (0 : Rounded R) ≠ nan := num_ne_nan

@[simp] theorem one_ne_nan : (1 : Rounded R) ≠ nan := num_ne_nan

@[simp] theorem value_zero : (0 : Rounded R).value = 0 := by
  change (R.round 0 : EReal) = 0
  simp

@[simp] theorem value_one : (1 : Rounded R).value = 1 := by
  change (R.round 1 : EReal) = 1
  simp

private theorem coe_nonpos_iff {a : ℝ≥0∞} : (a : EReal) ≤ 0 ↔ a = 0 := by
  rw [← EReal.coe_ennreal_zero, EReal.coe_ennreal_le_coe_ennreal_iff, nonpos_iff_eq_zero]

theorem num_nonneg_iff {s : Bool} {a : R.Magnitude} :
    0 ≤ (num s a : Rounded R) ↔ s = true → a.val = 0 := by
  rw [le_iff_value zero_ne_nan num_ne_nan, value_zero]
  cases s with
  | false => simp [value, EReal.coe_ennreal_nonneg]
  | true => simp [value, coe_nonpos_iff]

/-- The value of a number that is not negative is its magnitude. -/
theorem value_of_nonneg (h : 0 ≤ x) : x.value = x.size := by
  cases x with
  | nan => exact h.elim
  | num s a =>
    cases s with
    | false => rfl
    | true => simp [value, size, num_nonneg_iff.mp h rfl]

theorem le_iff_size (hx : 0 ≤ x) (hy : 0 ≤ y) : x ≤ y ↔ x.size ≤ y.size := by
  rw [le_iff_value (ne_nan_of_le hx).2 (ne_nan_of_le hy).2, value_of_nonneg hx, value_of_nonneg hy,
    EReal.coe_ennreal_le_coe_ennreal_iff]

theorem lt_iff_size (hx : 0 ≤ x) (hy : 0 ≤ y) : x < y ↔ x.size < y.size := by
  rw [lt_iff_value (ne_nan_of_le hx).2 (ne_nan_of_le hy).2, value_of_nonneg hx, value_of_nonneg hy,
    EReal.coe_ennreal_lt_coe_ennreal_iff]

theorem pos_iff_size (hx : 0 ≤ x) : 0 < x ↔ x.size ≠ 0 := by
  rw [lt_iff_size (le_self zero_ne_nan) hx, size_zero, pos_iff_ne_zero]

theorem zero_lt_one : (0 : Rounded R) < 1 := by
  rw [lt_iff_value zero_ne_nan one_ne_nan, value_zero, value_one]
  norm_num

theorem zero_le_one : (0 : Rounded R) ≤ 1 := le_of_lt zero_lt_one

theorem isFinite_iff : isFinite x = true ↔ x ≠ nan ∧ x.size ≠ ⊤ := by
  cases x with
  | nan => simp [isFinite]
  | num s a => simp [isFinite, size]

theorem isZero_iff : isZero x = true ↔ x ≠ nan ∧ x.size = 0 := by
  cases x with
  | nan => exact ⟨fun h => by simp [isZero] at h; exact h.1.elim, fun h => absurd rfl h.1⟩
  | num s a =>
    simp only [isZero, Bool.and_eq_true, decide_eq_true_eq]
    rw [le_iff_value num_ne_nan zero_ne_nan, le_iff_value zero_ne_nan num_ne_nan, value_zero]
    cases s with
    | false => simp [value, size, coe_nonpos_iff, EReal.coe_ennreal_nonneg]
    | true => simp [value, size, coe_nonpos_iff, EReal.coe_ennreal_nonneg]

@[simp] theorem ofSize_ne_nan (a : ℝ≥0∞) : (ofSize a : Rounded R) ≠ nan := num_ne_nan

@[simp] theorem size_ofSize (a : ℝ≥0∞) : (ofSize a : Rounded R).size = R.round a := rfl

theorem ofSize_nonneg (a : ℝ≥0∞) : 0 ≤ (ofSize a : Rounded R) :=
  num_nonneg_iff.mpr fun negative => by cases negative

theorem ofValue_ne_nan (v : EReal) : (ofValue v : Rounded R) ≠ nan := by
  simp only [ofValue]
  split_ifs
  · exact num_ne_nan
  · exact num_ne_nan

theorem ofValue_nonneg {v : EReal} (h : 0 ≤ v) :
    0 ≤ (ofValue v : Rounded R) ∧ (ofValue v : Rounded R).size = R.round v.toENNReal := by
  simp only [ofValue]
  rw [if_neg (not_lt.mpr h)]
  exact ⟨ofSize_nonneg _, rfl⟩

end Sizes

end Rounded
end DebrisDisk
