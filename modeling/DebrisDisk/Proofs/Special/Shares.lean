import DebrisDisk.Proofs.Fractions
import DebrisDisk.Proofs.Special.Functions
import DebrisDisk.Proofs.Stages

/-!
# Shares with special values

The active share of a bin and the eligible share of a column may be undefined, for sizes or depths
near the ends of the range, but they are never negative. The shares of a delivery are always
defined.

## Main results

* `Rounded.isShare_activeWeight`, `Rounded.isShare_eligibleFraction`.
* `Rounded.removalOf_mem`: what blow-out plans to remove from a bin is finite.
* `Rounded.powerLawWeights_mem`, `Rounded.shares_nonneg`.
-/

namespace DebrisDisk.Rounded
open Scalar
variable {R : Rounding}

/-! ## Shares of bins and columns -/

theorem isShare_activeWeight {floor : Rounded R} (positive : 0 < floor) (lo hi : Rounded R) :
    (activeWeight lo hi floor).IsShare := by
  simp only [activeWeight]
  split_ifs with below above
  · exact isShare_zero
  · exact isShare_one
  · exact isShare_ln_div_ln positive below above

theorem isShare_skin (skin : SkinColumn (Rounded R)) (active : Rounded R) :
    (skin.share active).IsShare := by
  simp only [SkinColumn.share]
  split_ifs
  · cases skin with
    | unbounded => exact isShare_one
    | column sigma =>
      simp only
      split_ifs
      · exact isShare_one
      · exact isShare_clamp _
  · exact isShare_zero

theorem isShare_eligibleFraction {e : Evaluation (Rounded R)} {c : RunConfig (Rounded R)}
    {selector : PressureSelector (Rounded R)} {state : DiskState (Rounded R)}
    (h : e.IsOf c selector state) : e.eligibleFraction.IsShare := by
  rw [h.eligibleFraction]
  simp only [BlowoutSettings.eligibleFraction]
  split_ifs
  · exact isShare_zero
  · exact isShare_zero
  · cases c.blowout.layer with
    | full => exact isShare_one
    | skin => exact isShare_skin _ _

/-- A defined product has defined factors. -/
private theorem ne_nan_of_mul {x y : Rounded R} (h : x * y ≠ nan) : x ≠ nan ∧ y ≠ nan := by
  constructor
  · rintro rfl
    exact h nan_mul
  · rintro rfl
    exact h mul_nan

/-- What blow-out plans to remove from a bin is finite. -/
theorem removalOf_mem {e : Evaluation (Rounded R)} {c : RunConfig (Rounded R)}
    {selector : PressureSelector (Rounded R)} {state : DiskState (Rounded R)}
    (h : e.IsOf c selector state) {dt : Time (Rounded R)} (defined : dt.seconds ≠ nan)
    {t : Timescale (Rounded R)} (proper : t.IsProper) {m weight : Rounded R} (nonneg : 0 ≤ m)
    (finite : isFinite m = true) (share : weight.IsShare) :
    let kg := e.removalOf c dt t (m * weight * e.eligibleFraction)
    0 ≤ kg ∧ isFinite kg = true := by
  simp only [Evaluation.removalOf]
  cases regime : c.blowout.binRegime? dt.seconds t (m * weight * e.eligibleFraction) with
  | none => exact ⟨le_self zero_ne_nan, isFinite_iff.mpr ⟨zero_ne_nan, by simp⟩⟩
  | some r =>
    simp only [BlowoutSettings.binRegime?] at regime
    split_ifs at regime with eligible
    have fraction := c.blowout.fastStep.isFraction_of_regime proper (le_self defined) regime
    have product := ne_nan_of_mul (ne_nan_of_lt eligible).2
    have weight_mem := share.resolve_left (ne_nan_of_mul product.1).2
    have eligible_mem := (isShare_eligibleFraction h).resolve_left product.2
    have active := mul_mem nonneg finite weight_mem.1 weight_mem.2
    have active_finite := isFinite_of_le active.1 active.2 finite
    have part := mul_mem active.1 active_finite eligible_mem.1 eligible_mem.2
    have part_finite := isFinite_of_le part.1 part.2 active_finite
    have gate := isFraction_gateFactor h.isProper_timescales.blow
      (h.isProper_timescales.competing c.blowout.gateMode)
    have taken := Fractional.isFraction_mul gate fraction
    have removed := mul_mem part.1 part_finite taken.nonneg taken.le_one
    rw [mul_swap] at removed
    exact ⟨removed.1, isFinite_of_le removed.1 removed.2 part_finite⟩

/-! ## Power laws -/

/-- The integral of a power law over a bin is an amount. -/
theorem isAmount_powerLawIntegral {a : Rounded R} (positive : 0 < a) (b q : Rounded R) :
    (powerLawIntegral a b q).IsAmount := by
  simp only [powerLawIntegral]
  split_ifs with empty flat
  · exact isAmount_of_nonneg (le_self zero_ne_nan)
  · by_cases defined : b = nan
    · rw [defined]
      exact isAmount_nan
    · have above := (not_le_iff defined (ne_nan_of_lt positive).2).mp empty
      have finite : isFinite a = true := by
        refine isFinite_iff.mpr ⟨(ne_nan_of_lt positive).2, ?_⟩
        have less := (lt_iff_size (le_of_lt positive)
          (le_of_lt (lt_of_lt_of_le positive (le_of_lt above)))).mp above
        exact less.ne_top
      exact isAmount_of_nonneg (ln_nonneg (one_le_div positive (le_of_lt above) finite).1).1
  · exact isAmount_pow_sub_pow_div positive empty

/-- The shares of a power law are defined, and none exceeds one. -/
theorem powerLawWeights_mem (b : SizeBins (Rounded R)) {floor : Rounded R} (positive : 0 < floor)
    (q : Rounded R) : ∀ w ∈ b.powerLawWeights floor q, 0 ≤ w ∧ w ≤ 1 := by
  have raw : ∀ x ∈ b.spans.map fun (lo, hi) => powerLawIntegral (fmax lo floor) hi q,
      x.IsAmount := by
    intro x hx
    obtain ⟨span, _, rfl⟩ := List.mem_map.mp hx
    have above := le_fmax (x := span.1) (ne_nan_of_lt positive).2
    exact isAmount_powerLawIntegral (lt_of_lt_of_le positive above) _ _
  intro w hw
  simp only [SizeBins.powerLawWeights] at hw
  split_ifs at hw with usable
  · obtain ⟨x, hx, rfl⟩ := List.mem_map.mp hw
    obtain ⟨nonneg, less⟩ := sum_mem raw usable.2 x hx
    exact div_mem nonneg less usable.1 (isFinite_of_le nonneg less usable.2)
  · obtain ⟨_, _, rfl⟩ := List.mem_map.mp hw
    exact ⟨le_self zero_ne_nan, zero_le_one⟩

/-- The shares of the bins in a delivery are defined. -/
theorem shares_nonneg (s : SupplySettings (Rounded R)) (b : SizeBins (Rounded R))
    {floor : Rounded R} (positive : 0 < floor) : ∀ w ∈ s.shares b floor, 0 ≤ w := by
  intro w hw
  simp only [SupplySettings.shares] at hw
  split_ifs at hw with some
  · obtain ⟨v, hv, rfl⟩ := List.mem_map.mp hw
    obtain ⟨j, hj⟩ := List.mem_iff_getElem?.mp hv
    obtain ⟨clipped, active, hclipped, _, rfl⟩ := List.getElem?_zipWith_eq_some.mp hj
    have part : 0 ≤ (if active < 1 then 0 else clipped) ∧
        isFinite (if active < 1 then 0 else clipped) = true := by
      split_ifs
      · exact ⟨le_self zero_ne_nan, isFinite_iff.mpr ⟨zero_ne_nan, by simp⟩⟩
      · obtain ⟨nonneg, less⟩ :=
          powerLawWeights_mem b positive s.slope clipped (List.mem_of_getElem? hclipped)
        exact ⟨nonneg, isFinite_of_le nonneg less (isFinite_iff.mpr ⟨one_ne_nan, by simp⟩)⟩
    rcases div_cases part.1 some with ⟨_, infinite, _⟩ | ⟨nonneg, _⟩
    · exact absurd infinite (isFinite_iff.mp part.2).2
    · exact nonneg
  · exact (powerLawWeights_mem b positive s.slope w hw).1

end DebrisDisk.Rounded
