import DebrisDisk.Proofs.Laws
import DebrisDisk.Proofs.Special.Arithmetic
import DebrisDisk.Proofs.Trajectory

/-!
# Fractions of a step

A step divides its length by every timescale and takes fractions of masses. Whether a quotient is
defined and a fraction lies between zero and one rests on a few laws that rounding keeps:
`Scalar.Fractional` collects them, and the real and the rounded numbers have them. A number is
defined when it compares with itself.

Two guards carry the rest. A timescale is infinite or positive and finite, so a defined number over
it is defined; and every fraction is clamped, or a product of clamped ones, so that it is a fraction
as soon as it is defined.

## Main results

* `Timescale.IsProper.isFraction_decayFraction`, `isFraction_gateFactor`,
  `FastStepSettings.isFraction_fraction`, `isFraction_slabMeanFlux`.
* `Integrator.forward_of_inputs`: no step goes back in time.
-/

namespace DebrisDisk

namespace Scalar
variable {α : Type} [Scalar α]

/-- The number lies between zero and one. -/
structure IsFraction (x : α) : Prop where
  nonneg : 0 ≤ x
  le_one : x ≤ 1

end Scalar

/-- Which operations give defined numbers and which give fractions. -/
class Scalar.Fractional (α : Type) [Scalar α] : Prop extends Scalar.Ordered α where
  zero_le_one : (0 : α) ≤ 1
  self_of_isFinite : ∀ {x : α}, Scalar.isFinite x = true → x ≤ x
  neg_self : ∀ {x : α}, x ≤ x → -x ≤ -x
  expm1_self : ∀ {x : α}, x ≤ x → Scalar.expm1 x ≤ Scalar.expm1 x
  div_self : ∀ {x y : α}, x ≤ x → 0 < y → Scalar.isFinite y = true → x / y ≤ x / y
  le_add : ∀ {x y : α}, 0 ≤ x → 0 ≤ y → x ≤ x + y
  isFraction_div : ∀ {x y : α}, 0 ≤ x → x ≤ y → 0 < y → Scalar.isFinite x = true →
    Scalar.IsFraction (x / y)
  isFraction_mul : ∀ {x y : α}, Scalar.IsFraction x → Scalar.IsFraction y →
    Scalar.IsFraction (x * y)
  mul_nonneg : ∀ {x y : α}, Scalar.IsFraction x → 0 ≤ y → Scalar.isFinite y = true → 0 ≤ x * y
  isFraction_exp_neg : ∀ {x : α}, 0 ≤ x → Scalar.IsFraction (Scalar.exp (-x))

/-! ## Carriers -/

namespace Scalar

instance : Fractional ℝ where
  zero_le_one := zero_le_one
  self_of_isFinite _ := le_rfl
  neg_self _ := le_rfl
  expm1_self _ := le_rfl
  div_self _ _ _ := le_rfl
  le_add _ hy := le_add_of_nonneg_right hy
  isFraction_div hx less hy _ := ⟨div_nonneg hx hy.le, div_le_one_of_le₀ less hy.le⟩
  isFraction_mul hx hy :=
    ⟨mul_nonneg hx.nonneg hy.nonneg, mul_le_one₀ hx.le_one hy.nonneg hy.le_one⟩
  mul_nonneg hx hy _ := mul_nonneg hx.nonneg hy
  isFraction_exp_neg hx := ⟨(exp_neg_mem hx).1, (exp_neg_mem hx).2⟩

/-- The exponential of a number that is not positive. -/
private theorem isFraction_exp_neg_rounded {R : Rounding} {x : Rounded R} (h : 0 ≤ x) :
    IsFraction (exp (-x)) := by
  cases x with
  | nan => exact absurd h Rounded.le_nan
  | num s a =>
    have opposite : (Rounded.num (!s) a : Rounded R).value ≤ 0 := by
      rw [Rounded.num_nonneg_iff] at h
      cases s with
      | false => simpa [Rounded.value] using EReal.coe_ennreal_nonneg a.val
      | true => simp [Rounded.value, h rfl]
    have small : EReal.exp (Rounded.num (!s) a : Rounded R).value ≤ 1 := by
      rw [← EReal.exp_zero]
      exact EReal.exp_monotone opposite
    have result : exp (-Rounded.num s a : Rounded R) =
        Rounded.ofSize (EReal.exp (Rounded.num (!s) a : Rounded R).value) := rfl
    rw [result]
    refine ⟨Rounded.ofSize_nonneg _, ?_⟩
    rw [Rounded.le_iff_size (Rounded.ofSize_nonneg _) Rounded.zero_le_one, Rounded.size_one]
    exact (R.monotone small).trans_eq R.round_one

instance {R : Rounding} : Fractional (Rounded R) where
  zero_le_one := Rounded.zero_le_one
  self_of_isFinite h := Rounded.le_self (Rounded.ne_nan_of_isFinite h)
  neg_self h := Rounded.le_self (Rounded.neg_ne_nan (Rounded.ne_nan_of_le h).1)
  expm1_self h := Rounded.le_self (Rounded.expm1_ne_nan (Rounded.ne_nan_of_le h).1)
  div_self hx hy finite :=
    Rounded.le_self (Rounded.div_ne_nan (Rounded.ne_nan_of_le hx).1 hy finite)
  le_add := Rounded.le_add_right
  isFraction_div hx less hy finite :=
    let ⟨nonneg, atMost⟩ := Rounded.div_mem hx less hy finite
    ⟨nonneg, atMost⟩
  isFraction_mul hx hy :=
    let ⟨nonneg, atMost⟩ := Rounded.mul_le_one hx.nonneg hx.le_one hy.nonneg hy.le_one
    ⟨nonneg, atMost⟩
  mul_nonneg {x y} hx hy finite := by
    rw [Rounded.mul_swap]
    exact (Rounded.mul_mem hy finite hx.nonneg hx.le_one).1
  isFraction_exp_neg := isFraction_exp_neg_rounded

/-! ## Clamps and exponentials -/

section Laws
variable {α : Type} [Scalar α] {x y z : α}

theorem Ordered.lt_of_lt_of_le [Ordered α] (h : x < y) (h' : y ≤ z) : x < z := by
  by_contra unlike
  have above := Ordered.le_of_not_lt (Ordered.le_self_of_le (Ordered.le_of_lt h)).1
    (Ordered.le_self_of_le h').2 unlike
  exact Ordered.not_lt_of_le (Ordered.le_trans h' above) h

/-- The greater of a number and zero is not negative, even of an undefined number. -/
theorem fmax_zero_nonneg [Ordered α] (x : α) : 0 ≤ fmax x 0 := by
  simp only [fmax]
  split
  · exact Ordered.le_of_lt ‹_›
  · rw [isNaN_eq_false_of_le Ordered.zero_le_zero]
    exact Ordered.zero_le_zero

/-- The lesser of two numbers is one of them. -/
theorem fmin_of_both {P : α → Prop} (hx : P x) (hy : P y) : P (fmin x y) := by
  simp only [fmin]
  split
  · exact hx
  · split
    · exact hx
    · exact hy

variable [Fractional α]

theorem isFraction_zero : IsFraction (0 : α) := ⟨Ordered.zero_le_zero, Fractional.zero_le_one⟩

theorem isFraction_one : IsFraction (1 : α) :=
  ⟨Fractional.zero_le_one, (Ordered.le_self_of_le Fractional.zero_le_one).2⟩

/-- A defined number is clamped to a fraction. -/
theorem isFraction_clamp (defined : x ≤ x) : IsFraction (clamp x 0 1) := by
  simp only [clamp]
  split_ifs with below above
  · exact isFraction_zero
  · exact isFraction_one
  · exact ⟨Ordered.le_of_not_lt defined Ordered.zero_le_zero below,
      Ordered.le_of_not_lt isFraction_one.le_one defined above⟩

/-- What a clamp leaves defined is a fraction. -/
theorem isFraction_of_clamp_self (defined : clamp x 0 1 ≤ clamp x 0 1) :
    IsFraction (clamp x 0 1) := by
  by_cases self : x ≤ x
  · exact isFraction_clamp self
  · have below : ¬ x < 0 := fun less => self (Ordered.le_self_of_le (Ordered.le_of_lt less)).1
    have above : ¬ 1 < x := fun less => self (Ordered.le_self_of_le (Ordered.le_of_lt less)).2
    rw [clamp, if_neg below, if_neg above] at defined
    exact absurd defined self

/-- What an exponential has lost of one is defined. -/
theorem neg_expm1_neg_self (defined : x ≤ x) : -(expm1 (-x)) ≤ -(expm1 (-x)) :=
  Fractional.neg_self (Fractional.expm1_self (Fractional.neg_self defined))

end Laws
end Scalar

open Scalar
variable {α : Type} [Scalar α] [Fractional α] {dt : α} {t t' : Timescale α}

/-! ## Timescales -/

/-- A defined number over a timescale that acts is defined. -/
theorem Timescale.IsProper.div_self (proper : t.IsProper) (defined : dt ≤ dt) {s : α}
    (acts : t = .finite s) : dt / s ≤ dt / s :=
  Fractional.div_self defined (proper s acts).2 (proper s acts).1

theorem Timescale.IsProper.isFraction_decayFraction (proper : t.IsProper) (defined : dt ≤ dt) :
    IsFraction (t.decayFraction dt) := by
  cases t with
  | infinite => exact isFraction_zero
  | finite s =>
    have ratio : -dt / s ≤ -dt / s := proper.div_self (Fractional.neg_self defined) rfl
    exact isFraction_clamp (Fractional.neg_self (Fractional.expm1_self ratio))

theorem isFraction_exactFraction (ratio : α) : IsFraction (exactFraction ratio) := by
  simp only [exactFraction]
  split_ifs with positive
  · exact isFraction_clamp
      (neg_expm1_neg_self (Ordered.le_self_of_le (Ordered.le_of_lt positive)).2)
  · exact isFraction_zero

/-- The fraction that a step takes of what blows out in a proper time. -/
theorem FastStepSettings.isFraction_of_regime (s : FastStepSettings α) (proper : t.IsProper)
    (defined : dt ≤ dt) {r : FastStepRegime α} (h : s.regime? dt t = some r) :
    IsFraction r.fraction := by
  cases t with
  | infinite => cases h
  | finite time =>
    have ratio : dt / time ≤ dt / time := proper.div_self defined rfl
    simp only [regime?, FastStepRegime.classify, Option.some.injEq] at h
    split_ifs at h <;> subst h
    · exact isFraction_exactFraction _
    · exact isFraction_clamp ratio
    · exact isFraction_clamp ratio

theorem FastStepSettings.isFraction_fraction (s : FastStepSettings α) (proper : t.IsProper)
    (defined : dt ≤ dt) : IsFraction (s.fraction dt t) := by
  simp only [fraction]
  cases regime : s.regime? dt t with
  | none => exact isFraction_zero
  | some r => exact s.isFraction_of_regime proper defined regime

theorem isFraction_gateFactor (proper : t.IsProper) (proper' : t'.IsProper) :
    IsFraction (gateFactor t t') := by
  cases t with
  | infinite => exact isFraction_one
  | finite b =>
    cases t' with
    | infinite => exact isFraction_one
    | finite c =>
      obtain ⟨_, positive⟩ := proper b rfl
      obtain ⟨finite, positive'⟩ := proper' c rfl
      have less := Fractional.le_add (Ordered.le_of_lt positive') (Ordered.le_of_lt positive)
      have share := Fractional.isFraction_div (Ordered.le_of_lt positive') less
        (Ordered.lt_of_lt_of_le positive' less) finite
      exact isFraction_clamp (Ordered.le_self_of_le share.le_one).1

/-! ## Radiation and phase -/

theorem isFraction_slabMeanFlux (tau : α) : IsFraction (slabMeanFlux tau) := by
  simp only [slabMeanFlux]
  split_ifs with positive thick
  · exact isFraction_zero
  · have defined := (Ordered.le_self_of_le (Ordered.le_of_lt positive)).2
    exact isFraction_clamp (Fractional.div_self (neg_expm1_neg_self defined) positive
      ((Bool.not_eq_false _).mp thick))
  · exact isFraction_one

/-- What the layers leave of the flux is a fraction of it, whatever the depths. -/
theorem ShieldingSettings.isFraction_apply (s : ShieldingSettings α) (i : ShieldingInputs α) :
    IsFraction (s.apply i).fluxFactor ∧ IsFraction (s.apply i).skinFluxFactor := by
  have vapor : IsFraction (exp (-(s.vaporDepth i))) :=
    Fractional.isFraction_exp_neg (fmax_zero_nonneg _)
  simp only [apply]
  split
  · cases s.order with
    | vaporFirst => exact ⟨Fractional.isFraction_mul vapor (isFraction_slabMeanFlux _), vapor⟩
    | dustFirst =>
      exact ⟨Fractional.isFraction_mul (isFraction_slabMeanFlux _) vapor, isFraction_one⟩
  · exact ⟨isFraction_one, isFraction_one⟩

/-- A phase that is resolved has a vapor fraction. -/
theorem PhaseSettings.isFraction_vaporFraction {s : PhaseSettings α} {selector : PressureSelector α}
    {ambient : Pressure α} {grains : Temperature α} {source : TemperatureSource} {tau : α}
    {phase : PhaseState α} {pressure : PressureEvaluation α}
    (h : s.evaluate selector ambient grains source tau = .ok (phase, pressure)) :
    IsFraction phase.vaporFraction := by
  simp only [evaluate] at h
  split at h
  · simp only [bind_eq_ok_iff, pure, Except.pure] at h
    obtain ⟨law, _, resolved⟩ := h
    set fraction := if s.enabled then s.vaporFraction grains.kelvin ambient tau else 0
      with hfraction
    have kept : isFinite fraction = true ∧ phase.vaporFraction = fraction := by
      by_cases finite : isFinite fraction = true
      · rw [if_pos finite] at resolved
        simp only [Except.ok.injEq, Prod.mk.injEq] at resolved
        exact ⟨finite, by rw [← resolved.1]⟩
      · rw [if_neg finite] at resolved
        cases resolved
    have defined := Fractional.self_of_isFinite kept.1
    rw [kept.2]
    simp only [hfraction] at defined ⊢
    split_ifs at defined ⊢
    · exact isFraction_of_clamp_self defined
    · exact isFraction_zero
  · cases h

/-! ## Steps go forward -/

/-- A planned step does not go back in time. -/
theorem NumericsSettings.plan_forward {c : RunConfig α} (valid : c.IsValid) {horizon : Time α}
    (positive : 0 < horizon.seconds) (finite : isFinite horizon.seconds = true)
    {timescales : TimescaleSet α} (proper : timescales.IsProper) :
    0 ≤ (c.numerics.plan horizon timescales).dt.seconds := by
  simp only [plan, stepLength]
  cases step : c.numerics.step with
  | fixed seconds =>
    exact fmin_of_both (P := fun x => 0 ≤ x) (Ordered.le_of_lt (valid.fixedStep seconds step).1)
      (Ordered.le_of_lt positive)
  | automatic =>
    obtain ⟨⟨safe, _⟩, share⟩ := valid.safety
    suffices bounded : 0 ≤ timescales.fastest.bounded horizon.seconds ∧
        isFinite (timescales.fastest.bounded horizon.seconds) = true from
      Fractional.mul_nonneg ⟨Ordered.le_of_lt safe, share⟩ bounded.1 bounded.2
    cases fastest : timescales.fastest with
    | finite s =>
      have acts := proper.isProper_fastest s fastest
      exact fmin_of_both (P := fun x => 0 ≤ x ∧ isFinite x = true)
        ⟨Ordered.le_of_lt acts.2, acts.1⟩ ⟨Ordered.le_of_lt positive, finite⟩
    | infinite =>
      have defined := isNaN_eq_false_of_le
        (Ordered.le_self_of_le (Ordered.le_of_lt positive)).2
      simp only [Timescale.bounded, defined, Bool.false_eq_true, if_false]
      exact ⟨Ordered.le_of_lt positive, finite⟩

namespace Integrator
variable {σ : Type} {i : Integrator α σ} {c : RunConfig α} {p : Preparation α} {s : StepInputs α}

/-- No step goes back in time, and the length of every step is defined. -/
theorem forward_of_inputs (run : i.IsRunOf c p) (inputs : s.IsOf i) : 0 ≤ s.dt.seconds := by
  obtain ⟨valid, horizon, _⟩ := RunConfig.prepare_eq_ok run.prepared
  obtain ⟨_, positive, finite⟩ := NumericsSettings.horizon_eq_ok_iff.mp horizon
  obtain ⟨timescales, proper, plan⟩ := run.plan_of_inputs inputs
  have planned := NumericsSettings.plan_forward valid positive finite proper
  have next := congrArg Prod.fst inputs.next
  simp only at next
  rw [next]
  simp only [StepPlan.next]
  split_ifs
  · exact fmax_zero_nonneg _
  · rw [plan]
    exact planned

end Integrator
end DebrisDisk
