import DebrisDisk.Proofs.Special.Functions
import DebrisDisk.Grains.SizeBins

/-!
# Overflow alone

The plainest format with special values holds every magnitude below the bound of binary64, and an
infinite one for those beyond. Within the bound its operations are the exact ones.

## Main definitions

* `Rounding.overflow`.
* `Rounded.Stands`: a number stands for an exact value that is not negative.

## Main results

* `Rounded.Stands.add` and its like: within the bound operations give exact values.
* `Rounded.Stands.powerLawIntegral`: so does the integral of a power law.
-/

namespace DebrisDisk
open scoped ENNReal

/-- The bound of binary64. -/
noncomputable def Rounding.bound : ℝ := 2 ^ 1024

/-- Values of a common scale are far below the bound. -/
theorem Rounding.lt_bound_of_le {v : ℝ} (h : v ≤ 1.0e30) : v < bound :=
  calc v ≤ 1.0e30 := h
    _ < 2 ^ 100 := by norm_num
    _ ≤ 2 ^ 1024 := pow_le_pow_right₀ one_le_two (by norm_num)

open Classical in
/-- Every magnitude below the bound of binary64 is held, and those beyond are infinite. -/
noncomputable def Rounding.overflow : Rounding where
  round x := if x < ENNReal.ofReal bound then x else ⊤
  monotone x y h := by
    dsimp only
    split_ifs with hx hy hy
    · exact h
    · exact le_top
    · exact absurd (h.trans_lt hy) hx
    · exact le_top
  round_round x := by
    split_ifs with hx beyond
    · rfl
    · exact absurd beyond not_top_lt
    · rfl
  round_zero := if_pos (ENNReal.ofReal_pos.mpr (lt_bound_of_le (by norm_num)))
  round_one := if_pos (ENNReal.one_lt_ofReal.mpr (lt_bound_of_le (by norm_num)))
  round_top := if_neg not_top_lt

namespace Rounded
open Scalar Rounding

theorem overflow_ofReal {v : ℝ} (small : v < bound) :
    overflow.round (ENNReal.ofReal v) = ENNReal.ofReal v :=
  if_pos ((ENNReal.ofReal_lt_ofReal_iff (lt_bound_of_le (by norm_num))).mpr small)

theorem overflow_of_bound_le {x : ℝ≥0∞} (large : ENNReal.ofReal bound ≤ x) :
    overflow.round x = ⊤ :=
  if_neg (not_lt.mpr large)

/-- The number stands for an exact value that is not negative. -/
structure Stands (x : Rounded overflow) (v : ℝ) : Prop where
  nonneg : 0 ≤ x
  size : x.size = ENNReal.ofReal v
  exact_nonneg : 0 ≤ v

namespace Stands
variable {x y k : Rounded overflow} {v w : ℝ}

/-! ## Comparisons -/

/-- Only values below the bound are stood for. -/
theorem small (h : x.Stands v) : v < bound := by
  by_contra beyond
  have held := round_size x
  rw [h.size, overflow_of_bound_le (ENNReal.ofReal_le_ofReal (not_lt.mp beyond))] at held
  exact ENNReal.ofReal_ne_top held.symm

theorem isFinite (h : x.Stands v) : isFinite x = true := by
  rw [isFinite_iff, h.size]
  exact ⟨(ne_nan_of_le h.nonneg).2, ENNReal.ofReal_ne_top⟩

theorem le_iff (hx : x.Stands v) (hy : y.Stands w) : x ≤ y ↔ v ≤ w := by
  rw [le_iff_size hx.nonneg hy.nonneg, hx.size, hy.size,
    ENNReal.ofReal_le_ofReal_iff hy.exact_nonneg]

theorem lt_iff (hx : x.Stands v) (hy : y.Stands w) : x < y ↔ v < w := by
  rw [lt_iff_size hx.nonneg hy.nonneg, hx.size, hy.size,
    ENNReal.ofReal_lt_ofReal_iff_of_nonneg hx.exact_nonneg]

theorem pos_iff (h : x.Stands v) : 0 < x ↔ 0 < v := by
  rw [pos_iff_size h.nonneg, h.size, ← pos_iff_ne_zero, ENNReal.ofReal_pos]

theorem isZero_iff (h : x.Stands v) : isZero x = true ↔ v = 0 := by
  rw [Rounded.isZero_iff, h.size, ENNReal.ofReal_eq_zero]
  exact ⟨fun zero => zero.2.antisymm h.exact_nonneg,
    fun zero => ⟨(ne_nan_of_le h.nonneg).2, zero.le⟩⟩

theorem magnitude (h : x.Stands v) : (magnitude x).Stands v := by
  have nonneg := (not_lt_iff (ne_nan_of_le h.nonneg).2 zero_ne_nan).mpr h.nonneg
  rwa [Scalar.magnitude, if_neg nonneg]

theorem fmax (hx : x.Stands v) (hy : y.Stands w) : (fmax x y).Stands (max v w) := by
  rw [fmax_eq (ne_nan_of_le hy.nonneg).2]
  split_ifs with greater
  · rwa [max_eq_left ((hy.lt_iff hx).mp greater).le]
  · rwa [max_eq_right (not_lt.mp ((hy.lt_iff hx).not.mp greater))]

/-! ## Operations -/

/-- A number that is not negative stands for what its magnitude was rounded from. -/
private theorem of_round (nonneg : 0 ≤ x) (size : x.size = overflow.round (ENNReal.ofReal v))
    (hv : 0 ≤ v) (small : v < bound) : x.Stands v :=
  ⟨nonneg, size.trans (overflow_ofReal small), hv⟩

theorem zero : Stands 0 0 := ⟨le_self zero_ne_nan, by simp, le_rfl⟩

theorem one : Stands 1 1 := ⟨zero_le_one, by simp, by simp⟩

theorem ofNat (n : ℕ) (small : (n : ℝ) < bound) : Stands (Scalar.ofNat n) n :=
  of_round (ofSize_nonneg _) (by rw [ENNReal.ofReal_natCast]; rfl) n.cast_nonneg small

theorem literal (m : ℕ) (s : Bool) (e : ℕ)
    (small : (OfScientific.ofScientific m s e : ℝ) < bound) :
    Stands (OfScientific.ofScientific m s e) (OfScientific.ofScientific m s e) :=
  of_round (ofSize_nonneg _) rfl (NNRat.cast_nonneg _) small

theorem add (hx : x.Stands v) (hy : y.Stands w) (small : v + w < bound) :
    (x + y).Stands (v + w) := by
  obtain ⟨nonneg, size⟩ := add_nonneg hx.nonneg hy.nonneg
  refine of_round nonneg ?_ (Left.add_nonneg hx.exact_nonneg hy.exact_nonneg) small
  rw [size, hx.size, hy.size, ENNReal.ofReal_add hx.exact_nonneg hy.exact_nonneg]

theorem sub (hx : x.Stands v) (hy : y.Stands w) (h : w ≤ v) (small : v - w < bound) :
    (x - y).Stands (v - w) := by
  rcases sub_cases hy.nonneg ((hy.le_iff hx).mpr h) with ⟨_, infinite, _⟩ | ⟨nonneg, size⟩
  · exact absurd infinite (isFinite_iff.mp hx.isFinite).2
  · refine of_round nonneg ?_ (sub_nonneg.mpr h) small
    rw [size, hx.size, hy.size, ENNReal.ofReal_sub v hy.exact_nonneg]

theorem mul (hx : x.Stands v) (hy : y.Stands w) (small : v * w < bound) :
    (x * y).Stands (v * w) := by
  rcases mul_cases hx.nonneg hy.nonneg with ⟨_, ⟨_, infinite⟩ | ⟨infinite, _⟩⟩ | ⟨nonneg, size⟩
  · exact absurd infinite (isFinite_iff.mp hy.isFinite).2
  · exact absurd infinite (isFinite_iff.mp hx.isFinite).2
  · refine of_round nonneg ?_ (mul_nonneg hx.exact_nonneg hy.exact_nonneg) small
    rw [size, hx.size, hy.size, ENNReal.ofReal_mul hx.exact_nonneg]

theorem div (hx : x.Stands v) (hy : y.Stands w) (positive : 0 < w) (small : v / w < bound) :
    (x / y).Stands (v / w) := by
  rcases div_cases hx.nonneg (hy.pos_iff.mpr positive) with ⟨_, infinite, _⟩ | ⟨nonneg, size⟩
  · exact absurd infinite (isFinite_iff.mp hx.isFinite).2
  · refine of_round nonneg ?_ (div_nonneg hx.exact_nonneg hy.exact_nonneg) small
    rw [size, hx.size, hy.size, ENNReal.ofReal_div_of_pos positive]

theorem sqrt (h : x.Stands v) (small : √v < bound) : (Scalar.sqrt x).Stands (√v) := by
  have root : 0 ≤ Scalar.sqrt x ∧ (Scalar.sqrt x).size =
      overflow.round (x.size ^ (0.5 : ℝ)) := by
    cases x with
    | nan => exact absurd h.nonneg le_nan
    | num s a =>
      have zero := num_nonneg_iff.mp h.nonneg
      simp only [Scalar.sqrt, Rounded.sqrt]
      rw [if_neg (by tauto)]
      refine ⟨num_nonneg_iff.mpr fun negative => ?_, rfl⟩
      have positive : (0 : ℝ) < 0.5 := by norm_num
      rw [fit_val, zero negative, ENNReal.zero_rpow_of_pos positive, round_zero]
  refine of_round root.1 ?_ (Real.sqrt_nonneg v) small
  rw [root.2, h.size, ENNReal.ofReal_rpow_of_nonneg h.exact_nonneg (by norm_num),
    Real.sqrt_eq_rpow, show (0.5 : ℝ) = 1 / 2 by norm_num]

/-- The value of a number in the extended reals. -/
theorem value (h : x.Stands v) : x.value = v := by
  rw [value_of_nonneg h.nonneg, h.size, EReal.coe_ennreal_ofReal, max_eq_left h.exact_nonneg]

theorem exp (h : x.Stands v) (small : Real.exp v < bound) :
    (Scalar.exp x).Stands (Real.exp v) := by
  have power : Scalar.exp x = ofSize (EReal.exp x.value) := by
    cases x with
    | nan => exact absurd h.nonneg le_nan
    | num s a => rfl
  rw [power, h.value, EReal.exp_coe]
  exact of_round (ofSize_nonneg _) rfl (Real.exp_pos v).le small

theorem ln (h : x.Stands v) (large : 1 ≤ v) (small : Real.log v < bound) :
    (Scalar.ln x).Stands (Real.log v) := by
  obtain ⟨nonneg, size⟩ := ln_nonneg ((one.le_iff h).mpr large)
  refine of_round nonneg ?_ (Real.log_nonneg large) small
  rw [size, h.size, ENNReal.log_ofReal_of_pos (one_pos.trans_le large),
    EReal.real_coe_toENNReal]

theorem pow (hx : x.Stands v) (hk : k.Stands w) (positive : 0 < v) (exponent : 0 < w)
    (small : v ^ w < bound) : (Scalar.pow x k).Stands (v ^ w) := by
  obtain ⟨nonneg, size⟩ := pow_of_pos (hx.pos_iff.mpr positive) (ne_nan_of_le hk.nonneg).2
    ((pos_iff_size hk.nonneg).mp (hk.pos_iff.mpr exponent))
  refine of_round nonneg ?_ (Real.rpow_nonneg positive.le w) small
  rw [size, hx.size, hk.value, power, if_neg (EReal.coe_ne_top w), if_neg (EReal.coe_ne_bot w),
    EReal.toReal_coe, ENNReal.ofReal_rpow_of_pos positive]

/-! ## Power laws -/

theorem powerLawIntegral {q : Rounded overflow} {r : ℝ} (hx : x.Stands v) (hy : y.Stands w)
    (hq : q.Stands r) (positive : 0 < v) (ascending : v < w) (flat : r ≤ 3.0)
    (small : w ^ (4.0 - r) < bound) :
    (powerLawIntegral x y q).Stands ((w ^ (4.0 - r) - v ^ (4.0 - r)) / (4.0 - r)) := by
  have four : Stands (4.0 : Rounded overflow) 4.0 := literal _ _ _ (lt_bound_of_le (by norm_num))
  have exponent : (1 : ℝ) ≤ 4.0 - r := by linarith [show (4.0 : ℝ) = 4 by norm_num]
  have hk : (4.0 - q).Stands (4.0 - r) := four.sub hq (by linarith)
    (lt_bound_of_le (by linarith [hq.exact_nonneg, show (4.0 : ℝ) ≤ 1.0e30 by norm_num]))
  have tiny : Stands (1e-12 : Rounded overflow) 1e-12 :=
    literal _ _ _ (lt_bound_of_le (by norm_num))
  have steep : ¬ Scalar.magnitude (4.0 - q) < 1e-12 := by
    rw [hk.magnitude.lt_iff tiny]
    linarith [show (1e-12 : ℝ) < 1 by norm_num]
  have nonneg : 0 < 4.0 - r := by linarith
  have less : v ^ (4.0 - r) < w ^ (4.0 - r) := Real.rpow_lt_rpow positive.le ascending nonneg
  have lower := hx.pow hk positive nonneg (less.trans small)
  have upper := hy.pow hk (positive.trans ascending) nonneg small
  have width := upper.sub lower less.le (by linarith [lower.exact_nonneg])
  unfold DebrisDisk.powerLawIntegral
  rw [if_neg ((hy.le_iff hx).not.mpr (not_le.mpr ascending))]
  dsimp only
  rw [if_neg steep]
  refine width.div hk nonneg ?_
  have part := div_le_self width.exact_nonneg exponent
  linarith [lower.exact_nonneg]

end Stands
end Rounded
end DebrisDisk
