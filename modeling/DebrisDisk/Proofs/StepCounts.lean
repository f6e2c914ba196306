import DebrisDisk.Proofs.Exact.Reals
import DebrisDisk.Proofs.Special.Numbers
import DebrisDisk.Run.Plan
import DebrisDisk.Scalar.Binary64

/-!
# Counting with numbers

A step budget is the whole part of a number that may be infinite or undefined. What a run needs to
know about it are a few laws that hold on every carrier: whole parts fit a 64-bit word, one is
counted as one, and nothing above one is counted as zero. `Counting` collects them, and the binary64
numbers, the rounded numbers and the real numbers have them.

For binary64 numbers the laws follow from how a number is unpacked: a number above one has an
exponent that is not the least one, so its mantissa has 53 digits, and a shift to the right by at
most 52 places leaves something of it.

## Main results

* `NumericsSettings.stepBudget_mem`: a step budget is positive and fits a 64-bit word.
-/

namespace DebrisDisk

/-- A carrier whose positive numbers are comparable and whose whole parts are counted in 64-bit
words. -/
class Scalar.Counting (α : Type) [Scalar α] : Prop where
  le_self : ∀ x : α, 0 < x → x ≤ x
  zero_lt_one : (0 : α) < 1
  toCount_one : Scalar.toCount (1 : α) = 1
  one_le_toCount : ∀ x : α, 1 < x → 1 ≤ Scalar.toCount x
  toCount_lt : ∀ x : α, Scalar.toCount x < 2 ^ 64

open Scalar
open scoped ENNReal

/-- A step budget is positive and fits a 64-bit word, also when the ratio of horizon and step length
is infinite or undefined. -/
theorem NumericsSettings.stepBudget_mem {α : Type} [Scalar α] [Counting α] (horizon dt : α) :
    1 ≤ stepBudget horizon dt ∧ stepBudget horizon dt < 2 ^ 64 := by
  refine ⟨?_, Counting.toCount_lt _⟩
  have defined : isNaN (1 : α) = false := by
    simp [isNaN, Counting.le_self (1 : α) Counting.zero_lt_one]
  simp only [stepBudget, fmax, defined]
  split
  · rename_i above
    exact Counting.one_le_toCount _ above
  · simp [Counting.toCount_one]

/-! ## Real numbers -/

instance : Counting ℝ where
  le_self x _ := le_refl x
  zero_lt_one := zero_lt_one
  toCount_one := by simp [toCount]
  one_le_toCount x above := by
    simp only [toCount]
    exact le_min (Nat.one_le_floor_iff x |>.mpr above.le) (by norm_num)
  toCount_lt x := by
    simp only [toCount]
    omega

/-! ## Rounded numbers -/

namespace Rounded
variable {R : Rounding}

theorem toCount_num (a : R.Magnitude) : Scalar.toCount (num false a) =
    if a.val = ⊤ then 2 ^ 64 - 1 else min ⌊a.val.toNNReal⌋₊ (2 ^ 64 - 1) := rfl

/-- The magnitude of a number above one is above one. -/
theorem one_lt_size {x : Rounded R} (above : 1 < x) : ∃ a, x = num false a ∧ 1 < a.val := by
  cases x with
  | nan => exact above.elim
  | num s a =>
    have value := (lt_iff_value one_ne_nan num_ne_nan).mp above
    rw [value_one] at value
    cases s with
    | false =>
      have magnitude : ((1 : ℝ≥0∞) : EReal) < (a.val : EReal) := by
        simpa [Rounded.value] using value
      exact ⟨a, rfl, EReal.coe_ennreal_lt_coe_ennreal_iff.mp magnitude⟩
    | true =>
      have nonpos : (num true a : Rounded R).value ≤ 0 := by
        simp [Rounded.value, EReal.coe_ennreal_nonneg]
      exact absurd (value.trans_le nonpos) (by norm_num)

instance : Counting (Rounded R) where
  le_self x positive := le_self (ne_nan_of_lt positive).2
  zero_lt_one := zero_lt_one
  toCount_one := by
    change (if R.round 1 = ⊤ then _ else _) = 1
    simp
  one_le_toCount x above := by
    obtain ⟨a, rfl, large⟩ := one_lt_size above
    rw [toCount_num]
    split_ifs with infinite
    · norm_num
    · have whole : 1 ≤ a.val.toNNReal := by
        simpa using ENNReal.toNNReal_mono infinite large.le
      exact le_min (Nat.one_le_floor_iff _ |>.mpr whole) (by norm_num)
  toCount_lt x := by
    cases x with
    | nan => norm_num [Scalar.toCount, toCount]
    | num s a =>
      cases s with
      | true => norm_num [Scalar.toCount, toCount]
      | false =>
        rw [toCount_num]
        split_ifs with infinite
        · norm_num
        · omega

end Rounded

/-! ## Binary64 numbers -/

namespace Scalar.Binary64
open Float.Model Float.Model.UnpackedFloat

/-- A finite number above the least exponent holds 53 digits. -/
theorem two_pow_le_of_unpack {b : BitVec Format.binary64.numBits} {s : UnpackedFloat.Sign} {m : Nat}
    {e : Int} {h : 0 < m} (unpacked : UnpackedFloat.unpack Format.binary64 b = .finite s m e h)
    (above : -1074 < e) : 2 ^ 52 ≤ m := by
  simp only [UnpackedFloat.unpack] at unpacked
  split at unpacked
  · split at unpacked <;> simp at unpacked
  · split at unpacked
    · rename_i zero
      split at unpacked
      · simp at unpacked
      · simp only [UnpackedFloat.finite.injEq] at unpacked
        obtain ⟨_, _, rfl⟩ := unpacked
        rw [zero] at above
        simp [Format.exponentBias] at above
    · simp only [UnpackedFloat.finite.injEq] at unpacked
      obtain ⟨_, rfl, _⟩ := unpacked
      rw [BitVec.toNat_append]
      exact Nat.left_le_or (n := (1#1).toNat <<< 52) (m := (unpackMantissa b).toNat)

theorem mantissa_shiftRight (em : ExtendedMantissa) (n : Nat) :
    (em >>> n).mantissa = em.mantissa / 2 ^ n := by
  show (n.repeat ExtendedMantissa.shiftRightOne em).mantissa = _
  induction n with
  | zero => simp [Nat.repeat]
  | succ n ih =>
    simp only [Nat.repeat, ExtendedMantissa.shiftRightOne, ih]
    rw [Nat.div_div_eq_div_mul, Nat.pow_succ]

/-- The whole part of a positive number with an exponent that is not negative. -/
theorem roundToInt_of_whole (m n : Nat) : roundToInt .positive m n = (m * 2 ^ n : Nat) := by
  simp [roundToInt, decreaseExponent, shiftToExponent, Sign.apply,
    ExtendedMantissa.ofMantissaAndAccuracy, mantissa_shiftRight, Nat.shiftLeft_eq]

/-- The whole part of a positive number with a negative exponent. -/
theorem roundToInt_of_fraction (m n : Nat) :
    roundToInt .positive m (-n) = (m / 2 ^ n : Nat) := by
  have stays : (-(n : Int) - 0).toNat = 0 := by omega
  have shift : (0 - (-(n : Int) - (0 : Nat))).toNat = n := by omega
  simp only [roundToInt, decreaseExponent, shiftToExponent, Sign.apply,
    ExtendedMantissa.ofMantissaAndAccuracy, mantissa_shiftRight, stays, shift, Nat.shiftLeft_zero]

theorem unpack_one :
    (1.0 : Float).toModel.unpack = .finite .positive (2 ^ 52) (-52) (by decide) := by
  rfl

/-- A number above one has a positive whole part. -/
theorem one_le_toUInt64 {x : Float} (above : 1.0 < x) : 1 ≤ x.toUInt64.toNat := by
  have compared : (1.0 : Float).toModel.unpack.compare x.toModel.unpack = some .lt := by
    simpa [LT.lt, Float.lt, Float.Model.lt, UnpackedFloat.lt] using above
  rw [unpack_one] at compared
  have whole : 1 ≤ (x.toModel.unpack.toInt 0 (UInt64.size - 1)).toNat := by
    cases unpacked : x.toModel.unpack with
    | notANumber => simp [unpacked, UnpackedFloat.compare] at compared
    | infinity s =>
      cases s with
      | negative => simp [unpacked, UnpackedFloat.compare] at compared
      | positive => simp [UnpackedFloat.toInt]
    | zero s => simp [unpacked, UnpackedFloat.compare] at compared
    | finite s m e h =>
      cases s with
      | negative => simp [unpacked, UnpackedFloat.compare] at compared
      | positive =>
        have held := two_pow_le_of_unpack unpacked
        simp only [unpacked, UnpackedFloat.compare, Option.some.injEq, Ordering.then_eq_lt,
          Std.compare_eq_lt, Std.compare_eq_iff_eq] at compared
        have exponent : -52 ≤ e := by omega
        have mantissa : 2 ^ 52 ≤ m := held (by omega)
        simp only [UnpackedFloat.toInt]
        rcases Int.eq_nat_or_neg e with ⟨n, rfl | rfl⟩
        · rw [roundToInt_of_whole, Int.toNat_natCast]
          exact Nat.mul_pos h (Nat.two_pow_pos n)
        · rw [roundToInt_of_fraction, Int.toNat_natCast]
          have short : 2 ^ n ≤ 2 ^ 52 := Nat.pow_le_pow_right (by omega) (by omega)
          exact Nat.div_pos (Nat.le_trans short mantissa) (Nat.two_pow_pos n)
  rw [Float.toUInt64, Float.Model.toUInt64, UnpackedFloat.toUInt64]
  by_cases fits : (x.toModel.unpack.toInt 0 (UInt64.size - 1)).toNat < UInt64.size
  · rwa [UInt64.toNat_ofNatClamp_of_lt fits]
  · rw [UInt64.toNat_ofNatClamp_of_le (Nat.le_of_not_lt fits)]
    decide

theorem unpack_zero : (0.0 : Float).toModel.unpack = .zero .positive := rfl

/-- A positive number is comparable. -/
theorem le_self_of_pos {x : Float} (positive : 0.0 < x) : x ≤ x := by
  have compared : (0.0 : Float).toModel.unpack.compare x.toModel.unpack = some .lt := by
    simpa [LT.lt, Float.lt, Float.Model.lt, UnpackedFloat.lt] using positive
  rw [unpack_zero] at compared
  have reflexive : x.toModel.unpack.compare x.toModel.unpack = some .eq := by
    cases unpacked : x.toModel.unpack with
    | notANumber => simp [unpacked, UnpackedFloat.compare] at compared
    | infinity s => cases s <;> rfl
    | zero s => rfl
    | finite s m e h => cases s <;> simp [UnpackedFloat.compare]
  simp [LE.le, Float.le, Float.Model.le, UnpackedFloat.le, reflexive]

end Scalar.Binary64

instance : Counting Float where
  le_self _ := Binary64.le_self_of_pos
  zero_lt_one := by decide
  toCount_one := by decide
  one_le_toCount _ := Binary64.one_le_toUInt64
  toCount_lt x := x.toUInt64.toNat_lt

end DebrisDisk
