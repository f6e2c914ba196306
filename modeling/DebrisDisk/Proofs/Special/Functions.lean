import DebrisDisk.Proofs.Special.Arithmetic

/-!
# Logarithms and powers with special values

The logarithm of a number that is at least one is not negative, and it keeps the order. So does the
power to a positive exponent, also to an infinite one, and the power to a negative exponent reverses
it.

## Main results

* `Rounded.ln_mono`, `Rounded.power_mono`, `Rounded.power_anti`.
* `Rounded.isShare_ln_div_ln`: the logarithm of a part of a width over that of the whole.
* `Rounded.isAmount_pow_sub_pow_div`: the integral of a power law.
-/

namespace DebrisDisk.Rounded
open Scalar
open scoped ENNReal
variable {R : Rounding} {x y k : Rounded R}

/-! ## Shares -/

/-- A number that is undefined or between zero and one. -/
def IsShare (x : Rounded R) : Prop := x = nan ∨ (0 ≤ x ∧ x ≤ 1)

theorem isShare_nan : (nan : Rounded R).IsShare := .inl rfl

theorem isShare_zero : (0 : Rounded R).IsShare := .inr ⟨le_self zero_ne_nan, zero_le_one⟩

theorem isShare_one : (1 : Rounded R).IsShare := .inr ⟨zero_le_one, le_self one_ne_nan⟩

theorem isShare_clamp (x : Rounded R) : (clamp x 0 1).IsShare := by
  by_cases defined : x = nan
  · rw [defined, clamp_nan]
    exact isShare_nan
  · exact .inr (clamp_mem zero_le_one defined)

/-- A part over the whole is a share; it is undefined when both are zero or both are infinite. -/
theorem isShare_div (hx : 0 ≤ x) (h : x ≤ y) : (x / y).IsShare := by
  have hy := le_trans hx h
  by_cases positive : 0 < y
  · rcases div_cases hx positive with ⟨undefined, _⟩ | ⟨nonneg, size⟩
    · exact .inl undefined
    · refine .inr ⟨nonneg, ?_⟩
      rw [le_iff_size nonneg zero_le_one, size, size_one, ← R.round_one]
      exact R.monotone (ENNReal.div_le_of_le_mul (by simpa using (le_iff_size hx hy).mp h))
  · left
    have none : y.size = 0 := by simpa using (pos_iff_size hy).not.mp positive
    have none' : x.size = 0 := by simpa [none] using (le_iff_size hx hy).mp h
    cases x with
    | nan => rfl
    | num s a =>
      cases y with
      | nan => exact div_nan
      | num t b =>
        simp only [size] at none none'
        rw [num_div_num, if_pos (.inl ⟨none', none⟩)]

/-! ## Logarithms -/

theorem ln_nonneg (h : 1 ≤ x) :
    0 ≤ Scalar.ln x ∧ (Scalar.ln x).size = R.round (ENNReal.log x.size).toENNReal := by
  have hx := le_trans zero_le_one h
  have large : 1 ≤ x.size := by simpa using (le_iff_size zero_le_one hx).mp h
  cases x with
  | nan => exact absurd h le_nan
  | num s a =>
    simp only [size] at large
    have plus : s = false := by
      by_contra minus
      have none := num_nonneg_iff.mp hx (by simpa using minus)
      simp [none] at large
    subst plus
    have log : Scalar.ln (num false a : Rounded R) = ofValue (ENNReal.log a.val) := by
      simp [Scalar.ln, Rounded.ln]
    rw [log]
    exact ofValue_nonneg (ENNReal.zero_le_log_iff.mpr large)

theorem ln_mono (h : 1 ≤ x) (h' : x ≤ y) : Scalar.ln x ≤ Scalar.ln y := by
  have hx := le_trans zero_le_one h
  obtain ⟨nonneg, size⟩ := ln_nonneg h
  obtain ⟨nonneg', size'⟩ := ln_nonneg (le_trans h h')
  rw [le_iff_size nonneg nonneg', size, size']
  refine R.monotone (EReal.toENNReal_le_toENNReal ?_)
  exact ENNReal.log_monotone ((le_iff_size hx (le_trans hx h')).mp h')

/-- The logarithm of a negative number is undefined, and that of a negative zero is infinite. -/
private theorem ln_negative (a : R.Magnitude) :
    Scalar.ln (num true a : Rounded R) = nan ∨
      Scalar.ln (num true a : Rounded R) = num true (R.fit ⊤) := by
  by_cases zero : a.val = 0
  · right
    simp [Scalar.ln, Rounded.ln, zero, ofValue]
  · left
    simp [Scalar.ln, Rounded.ln, zero]

/-- A quotient that exceeds one. -/
theorem one_le_div (hx : 0 < x) (h : x ≤ y) (finite : isFinite x = true) :
    1 ≤ y / x ∧ (y / x).size = R.round (y.size / x.size) := by
  have nonzero := (pos_iff_size (le_of_lt hx)).mp hx
  have bounded := (isFinite_iff.mp finite).2
  have hy := le_trans (le_of_lt hx) h
  rcases div_cases hy hx with ⟨_, _, infinite⟩ | ⟨nonneg, size⟩
  · exact absurd infinite bounded
  · refine ⟨?_, size⟩
    rw [le_iff_size zero_le_one nonneg, size, size_one, ← R.round_one]
    refine R.monotone ?_
    rw [ENNReal.le_div_iff_mul_le (.inl nonzero) (.inl bounded), one_mul]
    exact (le_iff_size (le_of_lt hx) hy).mp h

/-- A positive number over one that is not positive has no finite logarithm. -/
private theorem ln_div_cases {lo : Rounded R} (hx : 0 < x) (h : ¬ 0 < lo) :
    Scalar.ln (x / lo) = nan ∨ ∃ sign, Scalar.ln (x / lo) = num sign (R.fit ⊤) := by
  have positive := (pos_iff_size (le_of_lt hx)).mp hx
  cases x with
  | nan => exact absurd hx lt_nan
  | num s a =>
    cases lo with
    | nan => exact .inl (by rw [div_nan, ln_nan])
    | num t b =>
      simp only [size] at positive
      have plus : s = false := by
        by_contra minus
        exact positive (num_nonneg_iff.mp (le_of_lt hx) (by simpa using minus))
      subst plus
      rw [num_div_num]
      split_ifs with special
      · exact .inl ln_nan
      · cases t with
        | true =>
          rcases ln_negative (R.fit (a.val / b.val)) with undefined | infinite
          · exact .inl undefined
          · exact .inr ⟨true, infinite⟩
        | false =>
          have nonneg : 0 ≤ (num false b : Rounded R) := num_nonneg_iff.mpr (by simp)
          have none : b.val = 0 := by simpa [size] using (pos_iff_size nonneg).not.mp h
          refine .inr ⟨false, ?_⟩
          simp [Scalar.ln, Rounded.ln, none, ENNReal.div_zero positive, ofValue]

/-- Any number over an infinite one is undefined or zero. -/
private theorem isShare_div_infinite (x : Rounded R) (sign : Bool) :
    (x / num sign (R.fit ⊤)).IsShare := by
  cases x with
  | nan => exact isShare_nan
  | num s a =>
    rw [num_div_num]
    split_ifs with special
    · exact isShare_nan
    · have none : R.fit (a.val / (R.fit ⊤).val) = R.fit 0 := by simp
      have nonneg : 0 ≤ (num (s ^^ sign) (R.fit 0) : Rounded R) := num_nonneg_iff.mpr (by simp)
      rw [none]
      refine .inr ⟨nonneg, ?_⟩
      rw [le_iff_size nonneg zero_le_one]
      simp [size]

/-- The logarithm of a part of a width over that of the whole is a share, whatever the lower end. -/
theorem isShare_ln_div_ln {lo floor hi : Rounded R} (positive : 0 < floor) (above : ¬ hi ≤ floor)
    (below : ¬ floor ≤ lo) : (Scalar.ln (hi / floor) / Scalar.ln (hi / lo)).IsShare := by
  have hfloor := (ne_nan_of_lt positive).2
  by_cases undefined : hi = nan
  · rw [undefined]
    exact isShare_nan
  have floor_lt := (not_le_iff undefined hfloor).mp above
  have hi_pos := lt_of_lt_of_le positive (le_of_lt floor_lt)
  by_cases lo_pos : 0 < lo
  · have lt_floor := (not_le_iff hfloor (ne_nan_of_lt lo_pos).2).mp below
    have sizes := (lt_iff_size (le_of_lt positive) (le_of_lt hi_pos)).mp floor_lt
    have finite : isFinite floor = true := isFinite_iff.mpr ⟨hfloor, sizes.ne_top⟩
    obtain ⟨part_one, part_size⟩ := one_le_div positive (le_of_lt floor_lt) finite
    obtain ⟨whole_one, whole_size⟩ := one_le_div lo_pos
      (le_trans (le_of_lt lt_floor) (le_of_lt floor_lt))
      (isFinite_of_le (le_of_lt lo_pos) (le_of_lt lt_floor) finite)
    refine isShare_div (ln_nonneg part_one).1 (ln_mono part_one ?_)
    rw [le_iff_size (le_trans zero_le_one part_one) (le_trans zero_le_one whole_one), part_size,
      whole_size]
    exact R.monotone (ENNReal.div_le_div_left
      ((lt_iff_size (le_of_lt lo_pos) (le_of_lt positive)).mp lt_floor).le _)
  · -- without a positive lower end the whole is undefined or infinite, of either sign
    rcases ln_div_cases hi_pos lo_pos with undefined | ⟨sign, infinite⟩
    · rw [undefined, div_nan]
      exact isShare_nan
    · rw [infinite]
      exact isShare_div_infinite _ sign

/-! ## Powers -/

theorem power_mono {v : EReal} (hv : 0 < v) {a b : ℝ≥0∞} (h : a ≤ b) : power a v ≤ power b v := by
  simp only [power]
  have notBot : v ≠ ⊥ := fun bot => by simp [bot] at hv
  by_cases infinite : v = ⊤
  · rw [if_pos infinite, if_pos infinite]
    rcases lt_trichotomy a 1 with less | one | greater
    · simp [less]
    · rcases h.lt_or_eq with strict | same
      · have : 1 < b := one ▸ strict
        simp [one, this.not_gt, this.ne']
      · simp [← same, one]
    · have : 1 < b := greater.trans_le h
      simp [greater.not_gt, greater.ne', this.not_gt, this.ne']
  · rw [if_neg infinite, if_neg infinite, if_neg notBot, if_neg notBot]
    exact ENNReal.rpow_le_rpow h (EReal.toReal_nonneg hv.le)

theorem power_anti {v : EReal} (hv : v < 0) {a b : ℝ≥0∞} (h : a ≤ b) : power b v ≤ power a v := by
  simp only [power]
  have notTop : v ≠ ⊤ := fun top => by simp [top] at hv
  by_cases infinite : v = ⊥
  · rw [if_neg notTop, if_neg notTop, if_pos infinite, if_pos infinite]
    rcases lt_trichotomy a 1 with less | one | greater
    · simp [less]
    · rcases h.lt_or_eq with strict | same
      · have : 1 < b := one ▸ strict
        simp [one, this.not_gt, this.ne']
      · simp [← same, one]
    · have : 1 < b := greater.trans_le h
      simp [greater.not_gt, greater.ne', this.not_gt, this.ne']
  · rw [if_neg notTop, if_neg notTop, if_neg infinite, if_neg infinite]
    have negative : v.toReal ≤ 0 := EReal.toReal_nonpos hv.le
    rw [← neg_neg v.toReal, ENNReal.rpow_neg, ENNReal.rpow_neg a, ENNReal.inv_le_inv]
    exact ENNReal.rpow_le_rpow h (neg_nonneg.mpr negative)

/-- The power of a positive number to an exponent other than zero. -/
theorem pow_of_pos (hx : 0 < x) (defined : k ≠ nan) (nonzero : k.size ≠ 0) :
    0 ≤ Scalar.pow x k ∧ (Scalar.pow x k).size = R.round (power x.size k.value) := by
  have positive := (pos_iff_size (le_of_lt hx)).mp hx
  cases x with
  | nan => exact absurd hx lt_nan
  | num s a =>
    cases k with
    | nan => exact absurd rfl defined
    | num t b =>
      simp only [size] at positive nonzero
      have plus : s = false := by
        by_contra minus
        exact positive (num_nonneg_iff.mp (le_of_lt hx) (by simpa using minus))
      subst plus
      have power : Scalar.pow (num false a) (num t b) =
          (num false (R.fit (power a.val (num t b).value)) : Rounded R) := by
        simp [Scalar.pow, Rounded.pow, nonzero]
      rw [power]
      exact ⟨num_nonneg_iff.mpr (by simp), rfl⟩

theorem pow_zero_exponent (defined : k ≠ nan) (zero : k.size = 0) : Scalar.pow x k = 1 := by
  cases k with
  | nan => exact absurd rfl defined
  | num t b =>
    simp only [size] at zero
    cases x <;> simp [Scalar.pow, Rounded.pow, zero] <;> rfl

/-- A power to an exponent other than zero of an undefined base is undefined. -/
theorem nan_pow (nonzero : k.size ≠ 0) : Scalar.pow nan k = nan := by
  cases k with
  | nan => rfl
  | num t b =>
    simp only [size] at nonzero
    simp [Scalar.pow, Rounded.pow, nonzero]

/-! ## Power laws -/

/-- A difference of numbers that are not negative, of which the second is not less, is undefined,
zero or negative. -/
theorem sub_nonpos_cases (hx : 0 ≤ x) (h : x ≤ y) :
    x - y = nan ∨ ∃ s d, x - y = num s d ∧ (s = false → d.val = 0) := by
  have hy := le_trans hx h
  have less := (le_iff_size hx hy).mp h
  cases x with
  | nan => exact .inl rfl
  | num s a =>
    cases y with
    | nan => exact .inl sub_nan
    | num t b =>
      rw [num_nonneg_iff] at hx hy
      simp only [size] at less
      rw [num_sub_num, num_add_num]
      split_ifs with same special greater lesser
      · refine .inr ⟨s, _, rfl, fun plus => ?_⟩
        subst plus
        have none : b.val = 0 := hy (by simpa using same)
        have none' : a.val = 0 := by simpa [none] using less
        simp [none, none']
      · exact .inl rfl
      · exact absurd less (not_le.mpr greater)
      · refine .inr ⟨!t, _, rfl, fun plus => ?_⟩
        have none : b.val = 0 := hy (by simpa using plus)
        simp [none] at lesser
      · exact .inr ⟨false, _, rfl, fun _ => by simp⟩

/-- A difference that is not positive, over a negative number. -/
private theorem isAmount_sub_div_of_neg (hx : 0 ≤ x) (h : x ≤ y) (negative : k < 0) :
    ((x - y) / k).IsAmount := by
  have hk := (ne_nan_of_lt negative).1
  have minus : ¬ 0 ≤ k := (not_le_iff zero_ne_nan hk).mpr negative
  cases k with
  | nan => exact absurd rfl hk
  | num t c =>
    rw [num_nonneg_iff] at minus
    have below : t = true := by
      by_contra plus
      exact minus fun minus' => absurd minus' plus
    subst below
    rcases sub_nonpos_cases hx h with undefined | ⟨s, d, value, zero⟩
    · rw [undefined]
      exact isAmount_nan
    · rw [value, num_div_num]
      split_ifs
      · exact isAmount_nan
      · refine isAmount_of_nonneg (num_nonneg_iff.mpr fun minus => ?_)
        rw [R.fit_val, zero (by simpa using minus)]
        simp

/-- One less one, over zero, is undefined. -/
private theorem one_sub_one_div (defined : k ≠ nan) (zero : k.size = 0) : (1 - 1) / k = nan := by
  cases k with
  | nan => exact absurd rfl defined
  | num t c =>
    simp only [size] at zero
    have cancel : (1 - 1 : Rounded R) = num false (R.fit 0) := by
      change (num false (R.fit 1) - num false (R.fit 1) : Rounded R) = _
      rw [num_sub_num, num_add_num]
      simp
    rw [cancel, num_div_num, if_pos (.inl ⟨by simp, zero⟩)]

/-- The integral of a power law over an interval is an amount, whatever the exponent. -/
theorem isAmount_pow_sub_pow_div (hx : 0 < x) (h : ¬ y ≤ x) :
    ((Scalar.pow y k - Scalar.pow x k) / k).IsAmount := by
  by_cases undefined : k = nan
  · rw [undefined, div_nan]
    exact isAmount_nan
  by_cases zero : k.size = 0
  · rw [pow_zero_exponent undefined zero, pow_zero_exponent undefined zero,
      one_sub_one_div undefined zero]
    exact isAmount_nan
  by_cases unbounded : y = nan
  · rw [unbounded, nan_pow zero]
    exact isAmount_nan
  have hxy := (not_le_iff unbounded (ne_nan_of_lt hx).2).mp h
  have hy := lt_of_lt_of_le hx (le_of_lt hxy)
  have sizes := ((lt_iff_size (le_of_lt hx) (le_of_lt hy)).mp hxy).le
  obtain ⟨lower, lower_size⟩ := pow_of_pos hx undefined zero
  obtain ⟨upper, upper_size⟩ := pow_of_pos hy undefined zero
  by_cases positive : 0 < k
  · have hk : 0 < k.value := by
      rw [lt_iff_value zero_ne_nan undefined, value_zero] at positive
      exact positive
    have ordered : Scalar.pow x k ≤ Scalar.pow y k := by
      rw [le_iff_size lower upper, lower_size, upper_size]
      exact R.monotone (power_mono hk sizes)
    rcases sub_cases lower ordered with ⟨cancel, _⟩ | ⟨nonneg, _⟩
    · rw [cancel]
      exact isAmount_nan
    · exact (isAmount_of_nonneg nonneg).div positive
  · have negative : k < 0 := by
      have nonpos := (not_lt_iff zero_ne_nan undefined).mp positive
      rw [← not_le_iff zero_ne_nan undefined]
      intro nonneg
      exact zero (isZero_iff.mp (by simp [isZero, nonneg, nonpos])).2
    have hk : k.value < 0 := by
      have := (lt_iff_value undefined zero_ne_nan).mp negative
      rwa [value_zero] at this
    have ordered : Scalar.pow y k ≤ Scalar.pow x k := by
      rw [le_iff_size upper lower, lower_size, upper_size]
      exact R.monotone (power_anti hk sizes)
    exact isAmount_sub_div_of_neg upper ordered negative

end DebrisDisk.Rounded
