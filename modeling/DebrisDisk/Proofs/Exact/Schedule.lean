import Mathlib
import DebrisDisk.Proofs.Exact.Closure

/-!
# Step plans in exact arithmetic

The steps of a plan start at the multiples of its step length. A step lands on the horizon when what
remains is at most its length and a billionth more, so the first step that lands covers all of what
remains, and a step that does not land stops short of the horizon by more than a billionth of its
length. The number of the first step that lands follows, and the step budget that is derived from
the horizon is not spent before it.

## Main results

* `NumericsSettings.isForward_plan`: step lengths are positive and do not exceed the horizon.
* `StepPlan.start_add_length`: each step stops where the next one starts, or on the horizon.
* `StepPlan.ceil_of_lands`: the number of steps up to the first that lands.
* `StepPlan.lt_stepBudget`: a step that does not land leaves some of the derived step budget.
-/

namespace DebrisDisk
open Scalar

/-! ## Step lengths -/

/-- The step length is positive and does not exceed the horizon. -/
structure StepPlan.IsForward (p : StepPlan ℝ) : Prop where
  positive : 0 < p.dt.seconds
  within : p.dt.seconds ≤ p.horizon.seconds

/-- A proper timescale leaves something of a bound. -/
theorem Timescale.IsProper.bounded_mem {t : Timescale ℝ} (proper : t.IsProper) {bound : ℝ}
    (positive : 0 < bound) : 0 < t.bounded bound ∧ t.bounded bound ≤ bound := by
  cases t with
  | finite s =>
    simp only [bounded, fmin_real]
    exact ⟨lt_min (proper s rfl).2 positive, min_le_right _ _⟩
  | infinite => simpa [bounded] using positive

/-- Every plan of a valid configuration goes forward. -/
theorem NumericsSettings.isForward_plan {c : RunConfig ℝ} (valid : c.IsValid) {horizon : Time ℝ}
    (positive : 0 < horizon.seconds) {timescales : TimescaleSet ℝ} (proper : timescales.IsProper) :
    (c.numerics.plan horizon timescales).IsForward := by
  have length : 0 < c.numerics.stepLength horizon.seconds timescales ∧
      c.numerics.stepLength horizon.seconds timescales ≤ horizon.seconds := by
    simp only [stepLength]
    split
    · rename_i seconds fixed
      rw [fmin_real]
      exact ⟨lt_min (valid.fixedStep seconds fixed).1 positive, min_le_right _ _⟩
    · obtain ⟨shortest, bounded⟩ := proper.isProper_fastest.bounded_mem positive
      have safety := valid.safety
      exact ⟨mul_pos safety.1.1 shortest,
        (mul_le_of_le_one_left shortest.le safety.2).trans bounded⟩
  exact ⟨length.1, length.2⟩

/-! ## The steps of a plan -/

namespace StepPlan
variable {p : StepPlan ℝ} {k : ℕ}

/-- The time at which a step starts if no earlier step lands. -/
noncomputable def start (p : StepPlan ℝ) (k : ℕ) : Time ℝ := ⟨k * p.dt.seconds⟩

/-- The step lands on the horizon. -/
noncomputable def lands (p : StepPlan ℝ) (k : ℕ) : Bool := (p.next (p.start k)).2

/-- The length of the step in seconds. -/
noncomputable def length (p : StepPlan ℝ) (k : ℕ) : ℝ := (p.next (p.start k)).1.seconds

/-- The time at which the step stops, in seconds. -/
noncomputable def stop (p : StepPlan ℝ) (k : ℕ) : ℝ :=
  if p.lands k then p.horizon.seconds else (p.start k).seconds + p.dt.seconds

@[simp] theorem start_seconds : (p.start k).seconds = k * p.dt.seconds := rfl

@[simp] theorem start_zero : p.start 0 = 0 := Quantity.ext (by simp [start])

theorem lands_iff : p.lands k = true ↔
    p.horizon.seconds - k * p.dt.seconds ≤ p.dt.seconds * (1 + 1e-9) := by
  rw [← start_seconds]
  simp only [lands, next]
  split <;> simp_all

theorem not_lands_iff : p.lands k = false ↔
    p.dt.seconds * (1 + 1e-9) < p.horizon.seconds - k * p.dt.seconds := by
  rw [← Bool.not_eq_true, lands_iff, not_le]

theorem length_of_not_lands (onward : p.lands k = false) : p.length k = p.dt.seconds := by
  rw [not_lands_iff, ← start_seconds] at onward
  simp only [length, next]
  rw [if_neg (not_le.mpr onward)]

/-- A step starts before the horizon if no earlier step lands, with a reserve from the second step
on. -/
theorem start_lt_horizon (forward : p.IsForward) (onward : ∀ j < k, p.lands j = false) :
    (p.start k).seconds < p.horizon.seconds := by
  have positive := forward.positive
  cases k with
  | zero =>
    have horizon := positive.trans_le forward.within
    simpa using horizon
  | succ k =>
    have reserve := not_lands_iff.mp (onward k (by omega))
    simp only [start_seconds, Nat.cast_succ]
    linarith

theorem length_of_lands (forward : p.IsForward) (onward : ∀ j < k, p.lands j = false)
    (landing : p.lands k = true) : p.length k = p.horizon.seconds - (p.start k).seconds := by
  have before := start_lt_horizon forward onward
  have short := lands_iff.mp landing
  simp only [length, next]
  rw [if_pos (by simpa using short), fmax_real]
  exact max_eq_left (by linarith)

/-- Each step has a positive length. -/
theorem length_pos (forward : p.IsForward) (onward : ∀ j < k, p.lands j = false) :
    0 < p.length k := by
  cases landing : p.lands k with
  | false => simpa [length_of_not_lands landing] using forward.positive
  | true =>
    rw [length_of_lands forward onward landing]
    exact sub_pos.mpr (start_lt_horizon forward onward)

/-- Each step stops where the next one starts, or on the horizon. -/
theorem start_add_length (forward : p.IsForward) (onward : ∀ j < k, p.lands j = false) :
    (p.start k).seconds + p.length k = p.stop k := by
  cases landing : p.lands k with
  | false => simp [stop, landing, length_of_not_lands landing]
  | true => simp [stop, landing, length_of_lands forward onward landing]

/-- A step that does not land stops before the horizon. -/
theorem stop_lt_horizon (forward : p.IsForward) (onward : p.lands k = false) :
    p.stop k < p.horizon.seconds := by
  have reserve := not_lands_iff.mp onward
  have positive := forward.positive
  rw [stop, if_neg (by simp [onward]), start_seconds]
  linarith

/-- Only a step that lands stops on the horizon. -/
theorem stop_eq_horizon_iff (forward : p.IsForward) :
    p.stop k = p.horizon.seconds ↔ p.lands k = true := by
  cases landing : p.lands k with
  | false => simpa using (stop_lt_horizon forward landing).ne
  | true => simp [stop, landing]

/-- Steps stop one after the other. -/
theorem stop_lt_stop (forward : p.IsForward) {j : ℕ} (onward : ∀ m < k, p.lands m = false)
    (before : j < k) : p.stop j < p.stop k := by
  have whole : ((j + 1 : ℕ) : ℝ) * p.dt.seconds ≤ k * p.dt.seconds :=
    mul_le_mul_of_nonneg_right (by exact_mod_cast before) forward.positive.le
  have stops : p.stop j = (j + 1 : ℕ) * p.dt.seconds := by
    rw [stop, if_neg (by simp [onward j before]), start_seconds]
    push_cast
    ring
  calc
    p.stop j ≤ (p.start k).seconds := by rw [stops]; exact whole
    _ < (p.start k).seconds + p.length k := lt_add_of_pos_right _ (length_pos forward onward)
    _ = p.stop k := start_add_length forward onward

/-! ## The number of steps -/

/-- The number of steps up to the first one that lands. -/
theorem ceil_of_lands (forward : p.IsForward) (onward : ∀ j < k, p.lands j = false)
    (landing : p.lands k = true) :
    ⌈p.horizon.seconds / p.dt.seconds - 1e-9⌉ = (k : ℤ) + 1 := by
  have positive := forward.positive
  have short := lands_iff.mp landing
  rw [Int.ceil_eq_iff]
  push_cast
  constructor
  · rw [lt_sub_iff_add_lt, lt_div_iff₀ positive]
    cases k with
    | zero =>
      have within := forward.within
      push_cast
      linarith
    | succ k =>
      have reserve := not_lands_iff.mp (onward k (by omega))
      push_cast
      linarith
  · rw [sub_le_iff_le_add, div_le_iff₀ positive]
    linarith

/-- A step that does not land leaves some of the step budget that is derived from the horizon, as
long as the budget fits a 64-bit word. -/
theorem lt_stepBudget (forward : p.IsForward) (onward : p.lands k = false)
    (fits : 1.05 * p.horizon.seconds / p.dt.seconds ≤ 2 ^ 64 - 1) :
    k + 1 < NumericsSettings.stepBudget p.horizon.seconds p.dt.seconds := by
  have positive := forward.positive
  have reserve := not_lands_iff.mp onward
  have horizon := positive.trans_le forward.within
  set ratio := p.horizon.seconds / p.dt.seconds * (1 + 0.05) with hratio
  have counted : ((k + 1 : ℕ) : ℝ) < ratio := by
    rw [hratio, div_mul_eq_mul_div, lt_div_iff₀ positive]
    push_cast
    linarith
  have word : ratio ≤ (2 ^ 64 - 1 : ℕ) := by
    rw [hratio, div_mul_eq_mul_div, mul_comm]
    push_cast
    norm_num at fits ⊢
    exact fits
  have whole : ((k + 2 : ℕ) : ℝ) ≤ ⌈ratio⌉ := by
    have next : ((k + 1 : ℕ) : ℤ) < ⌈ratio⌉ := Int.lt_ceil.mpr (by exact_mod_cast counted)
    exact_mod_cast Int.add_one_le_of_lt next
  have budget : NumericsSettings.stepBudget p.horizon.seconds p.dt.seconds
      = min ⌊max (⌈ratio⌉ : ℝ) 1⌋₊ (2 ^ 64 - 1) := by
    simp only [NumericsSettings.stepBudget, fmax_real]
    rfl
  rw [budget, lt_min_iff]
  exact ⟨Nat.le_floor (whole.trans (le_max_left _ _)), by exact_mod_cast counted.trans_le word⟩

end StepPlan
end DebrisDisk
