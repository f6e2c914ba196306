import DebrisDisk.Proofs.Exact.Exposure
import DebrisDisk.Proofs.Fractions

/-!
# The order of the layers

Vapor leaves an exponential of its depth, and dust the mean `Φ` of the flux in the column that it is
seen through. In either order the flux that is left is the product of the two: only the column
differs, since vapor counts towards it where it stands in front of the dust. As `Φ` falls strictly
with the depth, vapor in front of the dust leaves less than vapor behind it, and more of either
layer leaves less.

`Φ` is the slope of a secant of the exponential through zero. The exponential is strictly convex, so
that the slopes fall; a slab without dust has a branch of its own.

## Main definitions

* `ShieldingOrder.columnDepth`, `ShieldingOrder.flux`: the column that the dust is seen through, and
  the flux that is left.
* `ShieldingSettings.Attenuates`: how the flux depends on the layers and on their order.

## Main results

* `slabMeanFlux_strictAntiOn`: the mean flux falls strictly with the depth.
* `ShieldingOrder.flux_anti`, `ShieldingOrder.flux_vaporFirst_lt_iff`: more of a layer, and the two
  orders.
* `ShieldingSettings.attenuates_of_physical`: every column of dust and vapor.
-/

namespace DebrisDisk
open Scalar

/-! ## The mean flux in a slab -/

theorem slabMeanFlux_zero : slabMeanFlux (0 : ℝ) = 1 :=
  if_pos (lt_irrefl 0)

/-- The clamp does nothing in exact arithmetic. -/
theorem slabMeanFlux_of_pos {tau : ℝ} (deep : 0 < tau) :
    slabMeanFlux tau = (1 - Real.exp (-tau)) / tau := by
  have absorbed : 0 ≤ 1 - Real.exp (-tau) := sub_nonneg.mpr (exp_neg_mem deep.le).2
  have most : 1 - Real.exp (-tau) ≤ tau := by linarith only [Real.add_one_le_exp (-tau)]
  have inside : (1 - Real.exp (-tau)) / tau ∈ Set.Icc (0 : ℝ) 1 :=
    ⟨div_nonneg absorbed deep.le, div_le_one_of_le₀ most deep.le⟩
  simp only [slabMeanFlux, deep, not_true_eq_false, isFinite_real, Bool.true_eq_false, if_false,
    expm1_real, neg_sub]
  exact clamp_of_mem inside

theorem slabMeanFlux_pos (tau : ℝ) : 0 < slabMeanFlux tau := by
  by_cases deep : 0 < tau
  · rw [slabMeanFlux_of_pos deep]
    exact div_pos (sub_pos.mpr (Real.exp_lt_one_iff.mpr (neg_neg_iff_pos.mpr deep))) deep
  · rw [slabMeanFlux, if_pos deep]
    exact one_pos

/-- The mean flux falls strictly with the depth of the slab. -/
theorem slabMeanFlux_strictAntiOn : StrictAntiOn (slabMeanFlux : ℝ → ℝ) (Set.Ici 0) := by
  intro tau nonneg tau' _ deeper
  have deep' : 0 < tau' := lt_of_le_of_lt nonneg deeper
  rcases (Set.mem_Ici.mp nonneg).eq_or_lt with rfl | deep
  · rw [slabMeanFlux_zero, slabMeanFlux_of_pos deep', div_lt_one deep']
    linarith only [Real.add_one_lt_exp (neg_ne_zero.mpr deep'.ne')]
  · have slope : ∀ t : ℝ,
        (Real.exp (-t) - Real.exp 0) / (-t - 0) = (1 - Real.exp (-t)) / t := fun t => by
      rw [Real.exp_zero, sub_zero, div_neg, ← neg_div, neg_sub]
    have secants := strictConvexOn_exp.secant_strict_mono (Set.mem_univ 0) (Set.mem_univ (-tau'))
      (Set.mem_univ (-tau)) (neg_ne_zero.mpr deep'.ne') (neg_ne_zero.mpr deep.ne')
      (neg_lt_neg deeper)
    rw [slabMeanFlux_of_pos deep, slabMeanFlux_of_pos deep']
    rwa [slope, slope] at secants

/-! ## Two layers -/

namespace ShieldingOrder

/-- The depth of the column that the dust is seen through. -/
def columnDepth : ShieldingOrder → ℝ → ℝ → ℝ
  | vaporFirst, dust, vapor => dust + vapor
  | dustFirst, dust, _ => dust

/-- The mean flux in the column, of the depths of the dust and of the vapor. -/
noncomputable def flux (order : ShieldingOrder) (dust vapor : ℝ) : ℝ :=
  Real.exp (-vapor) * slabMeanFlux (order.columnDepth dust vapor)

/-- The flux in front of the dust, of the depth of the vapor. -/
noncomputable def skinFlux : ShieldingOrder → ℝ → ℝ
  | vaporFirst, vapor => Real.exp (-vapor)
  | dustFirst, _ => 1

variable (order : ShieldingOrder) {dust vapor : ℝ}

theorem columnDepth_nonneg (nonneg : 0 ≤ dust) (nonneg' : 0 ≤ vapor) :
    0 ≤ order.columnDepth dust vapor := by
  cases order with
  | vaporFirst => exact add_nonneg nonneg nonneg'
  | dustFirst => exact nonneg

theorem columnDepth_mono {dust' vapor' : ℝ} (more : dust ≤ dust') (more' : vapor ≤ vapor') :
    order.columnDepth dust vapor ≤ order.columnDepth dust' vapor' := by
  cases order with
  | vaporFirst => exact add_le_add more more'
  | dustFirst => exact more

theorem skinFlux_mem (nonneg : 0 ≤ vapor) :
    order.skinFlux vapor ∈ Set.Icc (Real.exp (-vapor)) 1 := by
  have vaporLeaves : Real.exp (-vapor) ≤ 1 := (exp_neg_mem nonneg).2
  cases order with
  | vaporFirst => exact ⟨le_rfl, vaporLeaves⟩
  | dustFirst => exact ⟨vaporLeaves, le_rfl⟩

theorem flux_pos : 0 < order.flux dust vapor :=
  mul_pos (Real.exp_pos _) (slabMeanFlux_pos _)

theorem flux_le_skinFlux (nonneg : 0 ≤ vapor) : order.flux dust vapor ≤ order.skinFlux vapor := by
  calc
    order.flux dust vapor ≤ Real.exp (-vapor) :=
      mul_le_of_le_one_right (Real.exp_pos _).le (isFraction_slabMeanFlux _).le_one
    _ ≤ order.skinFlux vapor := (order.skinFlux_mem nonneg).1

/-- More dust and more vapor leave less flux. -/
theorem flux_anti {dust' vapor' : ℝ} (nonneg : 0 ≤ dust) (nonneg' : 0 ≤ vapor)
    (more : dust ≤ dust') (more' : vapor ≤ vapor') :
    order.flux dust' vapor' ≤ order.flux dust vapor := by
  have deep := order.columnDepth_nonneg nonneg nonneg'
  have deeper := order.columnDepth_mono more more'
  exact mul_le_mul (Real.exp_le_exp.mpr (neg_le_neg more'))
    (slabMeanFlux_strictAntiOn.antitoneOn deep (deep.trans deeper) deeper) (slabMeanFlux_pos _).le
    (Real.exp_pos _).le

/-- Of two orders, the one that sees the dust through less leaves more. -/
theorem flux_le_flux_iff (order' : ShieldingOrder) (nonneg : 0 ≤ dust) (nonneg' : 0 ≤ vapor) :
    order.flux dust vapor ≤ order'.flux dust vapor ↔
      order'.columnDepth dust vapor ≤ order.columnDepth dust vapor := by
  rw [flux, flux, mul_le_mul_iff_right₀ (Real.exp_pos _)]
  exact slabMeanFlux_strictAntiOn.le_iff_ge (order.columnDepth_nonneg nonneg nonneg')
    (order'.columnDepth_nonneg nonneg nonneg')

/-- Vapor in front of the dust leaves no more than vapor behind it. -/
theorem flux_vaporFirst_le (nonneg : 0 ≤ dust) (nonneg' : 0 ≤ vapor) :
    vaporFirst.flux dust vapor ≤ dustFirst.flux dust vapor :=
  (flux_le_flux_iff _ _ nonneg nonneg').mpr (le_add_of_nonneg_right nonneg')

/-- It leaves less exactly where there is vapor. -/
theorem flux_vaporFirst_lt_iff (nonneg : 0 ≤ dust) (nonneg' : 0 ≤ vapor) :
    vaporFirst.flux dust vapor < dustFirst.flux dust vapor ↔ 0 < vapor := by
  rw [lt_iff_lt_of_le_iff_le (flux_le_flux_iff _ _ nonneg nonneg')]
  exact lt_add_iff_pos_right dust

end ShieldingOrder

/-! ## Settings -/

/-- The column holds dust and vapor. -/
structure ShieldingInputs.IsPhysical (i : ShieldingInputs ℝ) : Prop where
  tau : 0 ≤ i.tau
  kappa : 0 ≤ i.kappa
  sigma : 0 ≤ i.sigma
  vaporFraction : i.vaporFraction ∈ Set.Icc 0 1

theorem LineOfSight.factor_nonneg (path : LineOfSight ℝ) : 0 ≤ path.factor := by
  cases path with
  | vertical => exact zero_le_one
  | slanted h m =>
    simp only [factor, fmax_real]
    split_ifs
    · exact zero_le_one.trans (le_max_right _ _)
    · exact zero_le_one

namespace ShieldingSettings

/-- The flux that the layers leave in some order. -/
noncomputable def applyIn (s : ShieldingSettings ℝ) (order : ShieldingOrder)
    (i : ShieldingInputs ℝ) : ShieldingOutcome ℝ :=
  ({ s with order } : ShieldingSettings ℝ).apply i

/-- The layers weaken the flux in either order, and only the flux depends on the order. -/
structure Attenuates (s : ShieldingSettings ℝ) (i : ShieldingInputs ℝ) : Prop where
  bounds : ∀ order, 0 < (s.applyIn order i).fluxFactor ∧
    (s.applyIn order i).fluxFactor ≤ (s.applyIn order i).skinFluxFactor ∧
    (s.applyIn order i).skinFluxFactor ≤ 1
  pathDepth : (s.applyIn .vaporFirst i).pathDepth = (s.applyIn .dustFirst i).pathDepth
  vaporDepth : (s.applyIn .vaporFirst i).vaporDepth = (s.applyIn .dustFirst i).vaporDepth
  pathOpacity : (s.applyIn .vaporFirst i).pathOpacity = (s.applyIn .dustFirst i).pathOpacity
  skin : (s.applyIn .vaporFirst i).skin = (s.applyIn .dustFirst i).skin
  le : (s.applyIn .vaporFirst i).fluxFactor ≤ (s.applyIn .dustFirst i).fluxFactor
  /-- Vapor in front of the dust leaves less than behind it exactly where there is vapor. -/
  lt_iff : ∀ order, (s.applyIn .vaporFirst i).fluxFactor < (s.applyIn .dustFirst i).fluxFactor ↔
    0 < (s.applyIn order i).vaporDepth
  tau_anti : ∀ order,
    AntitoneOn (fun tau => (s.applyIn order { i with tau }).fluxFactor) (Set.Ici 0)
  vaporFraction_anti : ∀ order,
    AntitoneOn (fun vaporFraction => (s.applyIn order { i with vaporFraction }).fluxFactor)
      (Set.Icc 0 1)
  vaporOpacity_anti : ∀ order,
    AntitoneOn (fun vaporOpacity =>
      (({ s with vaporOpacity } : ShieldingSettings ℝ).applyIn order i).fluxFactor) (Set.Ici 0)

section Apply
variable {s : ShieldingSettings ℝ} {i : ShieldingInputs ℝ}

theorem vaporDepth_nonneg : 0 ≤ s.vaporDepth i := fmax_zero_nonneg _

theorem vaporDepth_mono {s' : ShieldingSettings ℝ} {i' : ShieldingInputs ℝ}
    (more : s.vaporOpacity * i.vaporFraction * i.sigma ≤
      s'.vaporOpacity * i'.vaporFraction * i'.sigma) : s.vaporDepth i ≤ s'.vaporDepth i' := by
  simp only [vaporDepth, fmax_real]
  exact max_le_max_right _ more

theorem pathDepth_applyIn (order : ShieldingOrder) :
    (s.applyIn order i).pathDepth = s.lineOfSight.factor * i.tau :=
  pathDepth_apply _ i

variable (on : s.enabled = true) (order : ShieldingOrder)
include on

theorem vaporDepth_applyIn : (s.applyIn order i).vaporDepth = s.vaporDepth i := by
  simp only [applyIn, apply, on, if_true]
  cases order <;> rfl

theorem pathOpacity_applyIn :
    (s.applyIn order i).pathOpacity = s.lineOfSight.factor * i.kappa := by
  simp only [applyIn, apply, on, if_true]
  cases order <;> rfl

theorem skin_applyIn :
    (s.applyIn order i).skin = skin (s.lineOfSight.factor * i.kappa) :=
  skin_apply on

theorem skinFluxFactor_applyIn :
    (s.applyIn order i).skinFluxFactor = order.skinFlux (s.vaporDepth i) := by
  simp only [applyIn, apply, on, if_true]
  cases order <;> rfl

theorem fluxFactor_applyIn :
    (s.applyIn order i).fluxFactor =
      order.flux (s.lineOfSight.factor * i.tau) (s.vaporDepth i) := by
  simp only [applyIn, apply, on, if_true]
  cases order with
  | vaporFirst => rfl
  | dustFirst => exact mul_comm _ _

end Apply

/-- **The order of the layers.** The layers leave a positive part of the flux, which falls with the
depth of the dust, the fraction of vapor and its opacity. Vapor in front of the dust leaves less
than vapor behind it, and the depths, the opacity and the skin do not depend on the order. -/
theorem attenuates_of_physical {s : ShieldingSettings ℝ} (on : s.enabled = true)
    (absorbs : 0 ≤ s.vaporOpacity) {i : ShieldingInputs ℝ} (physical : i.IsPhysical) :
    s.Attenuates i := by
  have deep : 0 ≤ s.lineOfSight.factor * i.tau :=
    mul_nonneg s.lineOfSight.factor_nonneg physical.tau
  constructor
  case bounds =>
    intro order
    rw [fluxFactor_applyIn on, skinFluxFactor_applyIn on]
    exact ⟨order.flux_pos, order.flux_le_skinFlux vaporDepth_nonneg,
      (order.skinFlux_mem vaporDepth_nonneg).2⟩
  case pathDepth => rw [pathDepth_applyIn, pathDepth_applyIn]
  case vaporDepth => rw [vaporDepth_applyIn on, vaporDepth_applyIn on]
  case pathOpacity => rw [pathOpacity_applyIn on, pathOpacity_applyIn on]
  case skin => rw [skin_applyIn on, skin_applyIn on]
  case le =>
    rw [fluxFactor_applyIn on, fluxFactor_applyIn on]
    exact ShieldingOrder.flux_vaporFirst_le deep vaporDepth_nonneg
  case lt_iff =>
    intro order
    rw [fluxFactor_applyIn on, fluxFactor_applyIn on, vaporDepth_applyIn on]
    exact ShieldingOrder.flux_vaporFirst_lt_iff deep vaporDepth_nonneg
  case tau_anti =>
    intro order tau nonneg tau' _ more
    simp only [fluxFactor_applyIn on]
    exact order.flux_anti (mul_nonneg s.lineOfSight.factor_nonneg nonneg) vaporDepth_nonneg
      (mul_le_mul_of_nonneg_left more s.lineOfSight.factor_nonneg) le_rfl
  case vaporFraction_anti =>
    intro order fraction _ fraction' _ more
    simp only [fluxFactor_applyIn on]
    exact order.flux_anti deep vaporDepth_nonneg le_rfl (vaporDepth_mono
      (mul_le_mul_of_nonneg_right (mul_le_mul_of_nonneg_left more absorbs) physical.sigma))
  case vaporOpacity_anti =>
    intro order opacity _ opacity' _ more
    have on' : ∀ vaporOpacity, ({ s with vaporOpacity } : ShieldingSettings ℝ).enabled = true :=
      fun _ => on
    simp only [fluxFactor_applyIn (on' _)]
    exact order.flux_anti deep vaporDepth_nonneg le_rfl (vaporDepth_mono
      (mul_le_mul_of_nonneg_right (mul_le_mul_of_nonneg_right more physical.vaporFraction.1)
        physical.sigma))

/-- Dust of depth one on a path twice as long as the vertical one, half of the material being vapor
of depth one: both orders weaken the flux, and they differ. -/
theorem attenuates_dust_and_vapor :
    let s : ShieldingSettings ℝ :=
      { enabled := true, order := .dustFirst, vaporOpacity := 4, lineOfSight := .slanted 0.5 1 }
    let i : ShieldingInputs ℝ := { tau := 1, kappa := 2, sigma := 0.5, vaporFraction := 0.5 }
    s.Attenuates i ∧
      (s.applyIn .vaporFirst i).fluxFactor < (s.applyIn .dustFirst i).fluxFactor := by
  intro s i
  have physical : i.IsPhysical := by
    constructor <;> norm_num [i]
  have attenuates : s.Attenuates i :=
    attenuates_of_physical rfl (show (0 : ℝ) ≤ 4 by norm_num) physical
  have vapor : 0 < (s.applyIn .vaporFirst i).vaporDepth := by
    rw [vaporDepth_applyIn rfl, vaporDepth]
    norm_num [s, i]
  exact ⟨attenuates, (attenuates.lt_iff .vaporFirst).mpr vapor⟩

end ShieldingSettings
end DebrisDisk
