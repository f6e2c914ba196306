import DebrisDisk.Proofs.Exact.Reals

/-!
# Long steps in exact arithmetic

What blows out in the time `t` decays, so a step of `dt` seconds removes the fraction
`1 - exp (-dt / t)` of it. The ratio `dt / t`, one at most, is never less than that, and exceeds it
by no more than half of its square. Up to a threshold the ratio itself is removed, and above it the
exact fraction, so that the error of a step is bounded by the threshold.

## Main results

* `exactFraction_of_nonneg`: the exact fraction, also of a step of no length.
* `FastStepSettings.fraction_finite`: which of the two a step removes.
* `FastStepSettings.fraction_accurate`: how far the removed fraction is from the exact one.
-/

namespace DebrisDisk
open Scalar

/-! ## The exact fraction -/

section Ratio
variable {ratio : ℝ} (nonneg : 0 ≤ ratio)
include nonneg

theorem exactFraction_of_nonneg : exactFraction ratio = 1 - Real.exp (-ratio) := by
  rcases nonneg.eq_or_lt with rfl | positive
  · simp [exactFraction]
  · rw [exactFraction, if_pos positive, clamp_neg_expm1 nonneg]

/-- The quadratic expansion of a decay is an upper bound. -/
theorem exp_neg_le_quadratic : Real.exp (-ratio) ≤ 1 - ratio + ratio ^ 2 / 2 := by
  have growth : 1 + ratio + ratio ^ 2 / 2 ≤ Real.exp ratio :=
    Real.quadratic_le_exp_of_nonneg nonneg
  have positive : 0 < 1 - ratio + ratio ^ 2 / 2 := by nlinarith [sq_nonneg (ratio - 1)]
  have product : 1 ≤ (1 - ratio + ratio ^ 2 / 2) * (1 + ratio + ratio ^ 2 / 2) := by
    have expanded : (1 - ratio + ratio ^ 2 / 2) * (1 + ratio + ratio ^ 2 / 2) =
        1 + ratio ^ 4 / 4 := by ring
    rw [expanded]
    exact le_add_of_nonneg_right (by positivity)
  rw [Real.exp_neg, inv_le_iff_one_le_mul₀ (Real.exp_pos ratio)]
  exact product.trans (mul_le_mul_of_nonneg_left growth positive.le)

/-- The ratio, one at most, exceeds the exact fraction by half of its square at most. -/
theorem min_ratio_sub_exact_mem :
    min ratio 1 - (1 - Real.exp (-ratio)) ∈ Set.Icc 0 (ratio ^ 2 / 2) := by
  have below : 1 - ratio ≤ Real.exp (-ratio) := Real.one_sub_le_exp_neg ratio
  have positive : 0 < Real.exp (-ratio) := Real.exp_pos _
  have atMost : min ratio 1 ≤ ratio := min_le_left _ _
  have least : 1 - Real.exp (-ratio) ≤ min ratio 1 := le_min (by linarith) (by linarith)
  exact ⟨sub_nonneg.mpr least, by linarith [exp_neg_le_quadratic nonneg]⟩

end Ratio

/-! ## The removed fraction -/

namespace FastStepSettings
variable (s : FastStepSettings ℝ) (dt : ℝ)

@[simp] theorem fraction_infinite : s.fraction dt .infinite = 0 := rfl

theorem fraction_mem (t : Timescale ℝ) : s.fraction dt t ∈ Set.Icc (0 : ℝ) 1 := by
  simp only [fraction]
  cases s.regime? dt t with
  | none => exact ⟨le_rfl, zero_le_one⟩
  | some r => exact r.fraction_mem

variable {dt}

/-- A step removes the exact fraction above the threshold, and the ratio up to it. -/
theorem fraction_finite {t : ℝ} (nonneg : 0 ≤ dt / t) :
    s.fraction dt (.finite t) = if s.enabled = true ∧ s.limit < dt / t
      then 1 - Real.exp (-(dt / t)) else min (dt / t) 1 := by
  have linear : clamp (dt / t) 0 1 = min (dt / t) 1 := by
    rw [clamp_real zero_le_one, max_eq_right (le_min nonneg zero_le_one)]
  cases enabled : s.enabled with
  | false => simp [fraction, regime?, enabled, FastStepRegime.fraction, linear]
  | true =>
    by_cases long : s.limit < dt / t
    · simp [fraction, regime?, enabled, FastStepRegime.classify, long, FastStepRegime.fraction,
        exactFraction_of_nonneg nonneg]
    · simp [fraction, regime?, enabled, FastStepRegime.classify, long, FastStepRegime.fraction,
        linear]

variable {s}

theorem fraction_of_long (enabled : s.enabled = true) {t : ℝ} (nonneg : 0 ≤ dt / t)
    (long : s.limit < dt / t) : s.fraction dt (.finite t) = 1 - Real.exp (-(dt / t)) := by
  rw [s.fraction_finite nonneg, if_pos ⟨enabled, long⟩]

theorem fraction_of_short {t : ℝ} (nonneg : 0 ≤ dt / t)
    (short : s.enabled = true → dt / t ≤ s.limit) :
    s.fraction dt (.finite t) = min (dt / t) 1 := by
  rw [s.fraction_finite nonneg, if_neg fun long => (short long.1).not_gt long.2]

/-- Above a threshold of zero the fraction is exact, also for a step of no length. -/
theorem fraction_of_limit_zero (enabled : s.enabled = true) (limit : s.limit = 0) {t : ℝ}
    (nonneg : 0 ≤ dt / t) : s.fraction dt (.finite t) = 1 - Real.exp (-(dt / t)) := by
  rcases nonneg.eq_or_lt with none | positive
  · rw [fraction_of_short nonneg fun _ => by rw [limit, ← none], ← none]
    simp
  · exact fraction_of_long enabled nonneg (limit ▸ positive)

/-- The greatest ratio of a step that removes just its ratio. -/
noncomputable def linearLimit (s : FastStepSettings ℝ) : ℝ :=
  if s.enabled = true then min s.limit 1 else 1

theorem fraction_of_le_linearLimit {t : ℝ} (nonneg : 0 ≤ dt / t)
    (short : dt / t ≤ s.linearLimit) : s.fraction dt (.finite t) = dt / t := by
  have atMost : dt / t ≤ 1 ∧ (s.enabled = true → dt / t ≤ s.limit) := by
    rw [linearLimit] at short
    split_ifs at short with enabled
    · exact ⟨short.trans (min_le_right _ _), fun _ => short.trans (min_le_left _ _)⟩
    · exact ⟨short, fun on => absurd on enabled⟩
  rw [fraction_of_short nonneg atMost.2, min_eq_left atMost.1]

/-- **The fraction of a step lies between the exact one and the ratio.** Above the threshold it is
exact, and up to it too large by half of the square of the ratio at most. Without the exact
fraction a step removes no less. A threshold below one leaves something in every step, and two
thresholds make a difference for the ratios between them only. -/
theorem fraction_accurate (enabled : s.enabled = true) {t : ℝ} (forward : 0 ≤ dt) (acts : 0 < t) :
    let ratio := dt / t
    let exact := 1 - Real.exp (-ratio)
    let fraction := s.fraction dt (.finite t)
    fraction ∈ Set.Icc exact (min ratio 1) ∧
      (s.limit < ratio → fraction = exact) ∧
      (ratio ≤ s.limit → fraction - exact ≤ min ratio s.limit ^ 2 / 2) ∧
      (∀ off : FastStepSettings ℝ, off.enabled = false → fraction ≤ off.fraction dt (.finite t)) ∧
      (s.limit < 1 → fraction < 1) ∧
      ∀ other : FastStepSettings ℝ, other.enabled = true →
        ratio ∉ Set.Ioc (min s.limit other.limit) (max s.limit other.limit) →
          other.fraction dt (.finite t) = fraction := by
  intro ratio exact fraction
  have nonneg : 0 ≤ ratio := div_nonneg forward acts.le
  obtain ⟨least, excess⟩ := min_ratio_sub_exact_mem nonneg
  replace least : exact ≤ min ratio 1 := sub_nonneg.mp least
  have long (above : s.limit < ratio) : fraction = exact := fraction_of_long enabled nonneg above
  have short (below : ratio ≤ s.limit) : fraction = min ratio 1 :=
    fraction_of_short nonneg fun _ => below
  have between : fraction ∈ Set.Icc exact (min ratio 1) := by
    rcases le_or_gt ratio s.limit with below | above
    · rw [short below]
      exact ⟨least, le_rfl⟩
    · rw [long above]
      exact ⟨le_rfl, least⟩
  refine ⟨between, long, fun below => ?_, fun off disabled => ?_, fun threshold => ?_,
    fun other enabled' outside => ?_⟩
  · rwa [short below, min_eq_left below]
  · rw [fraction_of_short nonneg fun on => by simp [disabled] at on]
    exact between.2
  · rcases le_or_gt ratio s.limit with below | above
    · rw [short below]
      exact (min_le_left _ _).trans_lt (below.trans_lt threshold)
    · rw [long above]
      exact sub_lt_self 1 (Real.exp_pos _)
  · rw [Set.mem_Ioc, not_and_or, not_lt, not_le, le_min_iff, max_lt_iff] at outside
    rcases outside with ⟨below, below'⟩ | ⟨above, above'⟩
    · rw [short below, fraction_of_short nonneg fun _ => below']
    · rw [long above, fraction_of_long enabled' nonneg above']

/-- A step of a twentieth of the blow-out time removes too much by an eighth of a percent at most,
and the exact fraction under the strict threshold. -/
theorem fraction_accurate_twentieth :
    (default : FastStepSettings ℝ).fraction 5 (.finite 100) - (1 - Real.exp (-(5 / 100))) ≤
        1 / 800 ∧
      ({ default with strict := true } : FastStepSettings ℝ).fraction 5 (.finite 100) =
        1 - Real.exp (-(5 / 100)) := by
  have forward : (0 : ℝ) ≤ 5 := by norm_num
  have acts : (0 : ℝ) < 100 := by norm_num
  obtain ⟨_, _, short, _⟩ := fraction_accurate (s := default) rfl forward acts
  obtain ⟨_, long, _⟩ := fraction_accurate (s := { default with strict := true }) rfl forward acts
  constructor
  · refine (short (by norm_num [limit, default])).trans ?_
    norm_num [limit, default]
  · exact long (by norm_num [limit, default])

end FastStepSettings
end DebrisDisk
