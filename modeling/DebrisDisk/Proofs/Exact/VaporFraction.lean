import Mathlib
import DebrisDisk.Proofs.Exact.Reals
import DebrisDisk.Proofs.Commit

/-!
# The vapor fraction and its threshold

Inside the ramp the vapor fraction is the share of the ramp that the temperature has climbed,
divided by one factor for the ambient pressure and one for the optical depth. Neither factor is
below one and each grows with its quantity, so that more pressure and more dust leave less vapor. At
the upper end the factors drop out and the fraction jumps to one, which only makes it rise.

A fraction that rises with the temperature passes one half at most once. The disk is vapor from one
threshold on, which moves up with the pressure and with the depth and never past the upper end.

## Main definitions

* `PhaseSettings.damping`: what the ambient pressure and the optical depth divide the ramp by.
* `PhaseSettings.threshold`: the temperature from which the disk is vapor.
* `PhaseSettings.IsMonotone`: how the fraction and the phase depend on their inputs.

## Main results

* `PhaseSettings.vaporShare_le_vaporFraction_iff`: the fraction is a half or more from the
  threshold.
* `PhaseSettings.isMonotone`: every ramp, with or without its scales.
-/

namespace DebrisDisk
open Scalar

/-! ## Grains without a temperature -/

theorem PressureSelector.select_ne_phaseUnresolvable {α : Type} [Scalar α]
    {s : PressureSelector α} {temperature : Temperature α} (t : α) (f : Option α) :
    s.select temperature ≠ .error (.phaseUnresolvable t f) := by
  intro failed
  simp only [select, bind_eq_error_iff, pure, Except.pure, reduceCtorEq, and_false, exists_false,
    or_false] at failed
  cases s with
  | fixed law =>
    simp only [PressureSelector.law] at failed
    split at failed <;> cases failed
  | ladder candidates last => cases failed

/-- A phase is left open without a fraction just for grains whose temperature is not positive and
finite. -/
theorem PhaseSettings.evaluate_eq_unphysical_iff {α : Type} [Scalar α] {s : PhaseSettings α}
    {selector : PressureSelector α} {ambient : Pressure α} {grains : Temperature α}
    {source : TemperatureSource} {tau : α} :
    s.evaluate selector ambient grains source tau =
        .error (.phaseUnresolvable grains.kelvin none) ↔
      ¬ (isFinite grains.kelvin = true ∧ 0 < grains.kelvin) := by
  constructor
  · intro failed physical
    simp only [evaluate, if_pos physical] at failed
    rcases bind_eq_error_iff.mp failed with unselected | ⟨_, _, rest⟩
    · exact PressureSelector.select_ne_phaseUnresolvable _ _ unselected
    · generalize (if s.enabled = true then s.vaporFraction _ _ _ else 0) = fraction at rest
      split at rest <;> cases rest
  · intro unphysical
    rw [evaluate, if_neg unphysical]

namespace PhaseSettings

/-! ## Damping -/

/-- What a quantity on some scale divides a fraction by. -/
noncomputable def dampingBy (x scale : ℝ) : ℝ := if 0 < scale then 1 + max x 0 / scale else 1

theorem damped_real (fraction x scale : ℝ) :
    damped fraction x scale = fraction / dampingBy x scale := by
  simp only [damped, dampingBy, isFinite_real, true_and, fmax_real]
  split_ifs
  · rfl
  · exact (div_one fraction).symm

theorem one_le_dampingBy (x scale : ℝ) : 1 ≤ dampingBy x scale := by
  rw [dampingBy]
  split_ifs with scaled
  · exact le_add_of_nonneg_right (div_nonneg (le_max_right x 0) scaled.le)
  · exact le_rfl

theorem dampingBy_mono (scale : ℝ) : Monotone fun x => dampingBy x scale := by
  intro x x' more
  simp only [dampingBy]
  split_ifs with scaled
  · have larger : max x 0 ≤ max x' 0 := max_le_max more le_rfl
    gcongr
  · exact le_rfl

variable (s : PhaseSettings ℝ)

/-- What the ambient pressure and the optical depth divide the ramp by. -/
noncomputable def damping (ambient : Pressure ℝ) (tau : ℝ) : ℝ :=
  dampingBy ambient.bars s.pressureScale * dampingBy tau s.depthScale

theorem one_le_damping (ambient : Pressure ℝ) (tau : ℝ) : 1 ≤ s.damping ambient tau :=
  one_le_mul_of_one_le_of_one_le (one_le_dampingBy _ _) (one_le_dampingBy _ _)

/-- More pressure and a greater depth damp more. -/
theorem damping_mono {ambient ambient' : Pressure ℝ} {tau tau' : ℝ}
    (denser : ambient.pascals ≤ ambient'.pascals) (thicker : tau ≤ tau') :
    s.damping ambient tau ≤ s.damping ambient' tau' := by
  have bars : ambient.bars ≤ ambient'.bars := div_le_div_of_nonneg_right denser (by norm_num)
  exact mul_le_mul (dampingBy_mono _ bars) (dampingBy_mono _ thicker)
    (zero_le_one.trans (one_le_dampingBy _ _)) (zero_le_one.trans (one_le_dampingBy _ _))

/-! ## The ramp -/

/-- The ramp has a width, however narrow it is configured. -/
theorem condense_lt_top : s.condense < s.top := by
  rw [top, fmax_real]
  exact lt_max_of_lt_right (lt_add_one s.condense)

/-- The share of the ramp that lies below a temperature. -/
noncomputable def climbed (t : ℝ) : ℝ := (t - s.condense) / (s.top - s.condense)

theorem climbed_mono : Monotone s.climbed := by
  intro t t' warmer
  exact div_le_div_of_nonneg_right (sub_le_sub_right warmer _) (sub_pos.mpr s.condense_lt_top).le

/-- The temperature is inside the ramp. -/
def IsInside (t : ℝ) : Prop := s.condense < t ∧ t < s.top

variable {s} in
theorem IsInside.climbed_mem {t : ℝ} (h : s.IsInside t) : s.climbed t ∈ Set.Icc 0 1 := by
  have width := sub_pos.mpr s.condense_lt_top
  exact ⟨div_nonneg (sub_nonneg.mpr h.1.le) width.le,
    (div_le_one width).mpr (sub_le_sub_right h.2.le _)⟩

variable {s} in
/-- The damped share is a fraction already, so that the clamp does nothing. -/
theorem IsInside.damped_mem {t : ℝ} (h : s.IsInside t) (ambient : Pressure ℝ) (tau : ℝ) :
    s.climbed t / s.damping ambient tau ∈ Set.Icc 0 1 := by
  have factor := s.one_le_damping ambient tau
  exact ⟨div_nonneg h.climbed_mem.1 (zero_le_one.trans factor),
    div_le_one_of_le₀ (h.climbed_mem.2.trans factor) (zero_le_one.trans factor)⟩

/-! ## The vapor fraction -/

section Fraction
variable {s} {t t' : ℝ} {ambient ambient' : Pressure ℝ} {tau tau' : ℝ}

theorem vaporFraction_of_le (cold : t ≤ s.condense) : s.vaporFraction t ambient tau = 0 := by
  simp only [vaporFraction, if_pos cold]
  exact clamp_of_mem ⟨le_rfl, zero_le_one⟩

theorem vaporFraction_of_top_le (hot : s.top ≤ t) : s.vaporFraction t ambient tau = 1 := by
  have above : ¬ t ≤ s.condense := not_le.mpr (s.condense_lt_top.trans_le hot)
  simp only [vaporFraction, if_neg above, if_pos hot]
  exact clamp_of_mem ⟨zero_le_one, le_rfl⟩

theorem vaporFraction_of_isInside (inside : s.IsInside t) :
    s.vaporFraction t ambient tau = s.climbed t / s.damping ambient tau := by
  have ramp : damped (damped ((t - s.condense) / (s.top - s.condense)) ambient.bars
      s.pressureScale) tau s.depthScale = s.climbed t / s.damping ambient tau := by
    rw [damped_real, damped_real, div_div]
    rfl
  simp only [vaporFraction, if_neg (not_le.mpr inside.1), if_neg (not_le.mpr inside.2), ramp]
  exact clamp_of_mem (inside.damped_mem ambient tau)

variable (s) in
/-- A temperature is below the ramp, above it or inside it. -/
theorem zones (t : ℝ) : t ≤ s.condense ∨ s.top ≤ t ∨ s.IsInside t := by
  by_cases cold : t ≤ s.condense
  · exact .inl cold
  · by_cases hot : s.top ≤ t
    · exact .inr (.inl hot)
    · exact .inr (.inr ⟨not_le.mp cold, not_le.mp hot⟩)

variable (s) in
theorem vaporFraction_mem (t : ℝ) (ambient : Pressure ℝ) (tau : ℝ) :
    s.vaporFraction t ambient tau ∈ Set.Icc 0 1 :=
  clamp_mem zero_le_one

/-- Warmer grains, less pressure and a smaller depth leave at least as much vapor. -/
theorem vaporFraction_mono (warmer : t ≤ t') (thinner : ambient'.pascals ≤ ambient.pascals)
    (clearer : tau' ≤ tau) :
    s.vaporFraction t ambient tau ≤ s.vaporFraction t' ambient' tau' := by
  rcases s.zones t with cold | hot | inside
  · rw [vaporFraction_of_le cold]
    exact (s.vaporFraction_mem _ _ _).1
  · rw [vaporFraction_of_top_le hot, vaporFraction_of_top_le (hot.trans warmer)]
  · rcases le_or_gt s.top t' with hot' | below
    · rw [vaporFraction_of_top_le hot']
      exact (s.vaporFraction_mem _ _ _).2
    · have inside' : s.IsInside t' := ⟨inside.1.trans_le warmer, below⟩
      rw [vaporFraction_of_isInside inside, vaporFraction_of_isInside inside']
      exact div_le_div₀ inside'.climbed_mem.1 (s.climbed_mono warmer)
        (zero_lt_one.trans_le (s.one_le_damping _ _)) (s.damping_mono thinner clearer)

/-! ## The threshold -/

theorem vaporShare_real : (vaporShare : ℝ) = 1 / 2 := by
  norm_num [vaporShare]

variable (s) in
/-- The temperature from which the disk is vapor: half-way up the ramp without damping, higher with
it, and the upper end at most. -/
noncomputable def threshold (ambient : Pressure ℝ) (tau : ℝ) : ℝ :=
  min s.top (s.condense + (s.top - s.condense) * (vaporShare * s.damping ambient tau))

theorem condense_lt_threshold : s.condense < s.threshold ambient tau := by
  have width := sub_pos.mpr s.condense_lt_top
  have factor := zero_lt_one.trans_le (s.one_le_damping ambient tau)
  rw [threshold, vaporShare_real]
  exact lt_min s.condense_lt_top (lt_add_of_pos_right _ (by positivity))

/-- The fraction is one half or more just from the threshold. -/
theorem vaporShare_le_vaporFraction_iff :
    vaporShare ≤ s.vaporFraction t ambient tau ↔ s.threshold ambient tau ≤ t := by
  rcases s.zones t with cold | hot | inside
  · rw [vaporFraction_of_le cold]
    have below : t < s.threshold ambient tau := cold.trans_lt condense_lt_threshold
    exact iff_of_false (by norm_num [vaporShare_real]) (not_le.mpr below)
  · rw [vaporFraction_of_top_le hot]
    exact iff_of_true (by norm_num [vaporShare_real]) ((min_le_left _ _).trans hot)
  · have width := sub_pos.mpr s.condense_lt_top
    have factor := zero_lt_one.trans_le (s.one_le_damping ambient tau)
    rw [vaporFraction_of_isInside inside, threshold, min_le_iff, le_div_iff₀ factor, climbed,
      le_div_iff₀ width]
    constructor
    · intro climbed
      exact .inr (by linarith)
    · rintro (hot | climbed)
      · exact absurd hot (not_le.mpr inside.2)
      · linarith

/-- A disk counts as vapor just from the threshold, and never without phase changes. -/
theorem vaporShare_le_ite_iff :
    vaporShare ≤ (if s.enabled = true then s.vaporFraction t ambient tau else 0) ↔
      s.enabled = true ∧ s.threshold ambient tau ≤ t := by
  by_cases enabled : s.enabled = true
  · rw [if_pos enabled, vaporShare_le_vaporFraction_iff, and_iff_right enabled]
  · have solid : ¬ (vaporShare : ℝ) ≤ 0 := by norm_num [vaporShare_real]
    rw [if_neg enabled]
    exact iff_of_false solid fun vapor => enabled vapor.1

end Fraction

/-! ## Phases -/

section Evaluation
variable {s} {selector : PressureSelector ℝ} {ambient : Pressure ℝ} {grains : Temperature ℝ}
  {source : TemperatureSource} {tau : ℝ} {pressure : PressureEvaluation ℝ}

variable (s) in
/-- Warm grains with a vapor pressure have a phase, and it is vapor just from the threshold. -/
theorem evaluate_of_select (ambient : Pressure ℝ) (source : TemperatureSource) (tau : ℝ)
    (warm : 0 < grains.kelvin) (selected : selector.select grains = .ok pressure) :
    ∃ phase, s.evaluate selector ambient grains source tau = .ok (phase, pressure) ∧
      (phase.tag = .vapor ↔ s.enabled = true ∧ s.threshold ambient tau ≤ grains.kelvin) := by
  simp only [evaluate, isFinite_real, true_and, if_pos warm, selected, bind, Except.bind, if_true,
    pure, Except.pure]
  refine ⟨_, rfl, ?_⟩
  simp only [ite_eq_left_iff, reduceCtorEq, imp_false, not_not]
  exact vaporShare_le_ite_iff

theorem evaluate_of_select_error {e : StepError ℝ} (warm : 0 < grains.kelvin)
    (failed : selector.select grains = .error e) :
    s.evaluate selector ambient grains source tau = .error e := by
  simp only [evaluate, isFinite_real, true_and, if_pos warm, failed, bind, Except.bind]

/-- A phase is only resolved for warm grains with a vapor pressure. -/
theorem evaluate_eq_ok {phase : PhaseState ℝ}
    (resolved : s.evaluate selector ambient grains source tau = .ok (phase, pressure)) :
    0 < grains.kelvin ∧ selector.select grains = .ok pressure ∧
      (phase.tag = .vapor ↔ s.enabled = true ∧ s.threshold ambient tau ≤ grains.kelvin) := by
  have warm : 0 < grains.kelvin := by
    by_contra cold
    rw [evaluate, if_neg fun physical => cold physical.2] at resolved
    cases resolved
  cases selected : selector.select grains with
  | error e =>
    rw [evaluate_of_select_error warm selected] at resolved
    cases resolved
  | ok pressure' =>
    obtain ⟨phase', resolved', tag⟩ := s.evaluate_of_select ambient source tau warm selected
    obtain ⟨rfl, rfl⟩ : phase' = phase ∧ pressure' = pressure := by
      simpa using resolved'.symm.trans resolved
    exact ⟨warm, rfl, tag⟩

/-- Vapor stays vapor where it is warmer, under less pressure and for a smaller depth. -/
theorem evaluate_of_warmer {phase : PhaseState ℝ} {ambient' : Pressure ℝ} {grains' : Temperature ℝ}
    {source' : TemperatureSource} {tau' : ℝ} {pressure' : PressureEvaluation ℝ}
    (resolved : s.evaluate selector ambient grains source tau = .ok (phase, pressure))
    (vapor : phase.tag = .vapor) (warmer : grains.kelvin ≤ grains'.kelvin)
    (thinner : ambient'.pascals ≤ ambient.pascals) (clearer : tau' ≤ tau)
    (selected : selector.select grains' = .ok pressure') :
    ∃ phase', s.evaluate selector ambient' grains' source' tau' = .ok (phase', pressure') ∧
      phase'.tag = .vapor := by
  obtain ⟨warm, _, tag⟩ := evaluate_eq_ok resolved
  obtain ⟨phase', resolved', tag'⟩ :=
    s.evaluate_of_select ambient' source' tau' (warm.trans_le warmer) selected
  obtain ⟨enabled, reached⟩ := tag.mp vapor
  have share : vaporShare ≤ s.vaporFraction grains'.kelvin ambient' tau' :=
    (vaporShare_le_vaporFraction_iff.mpr reached).trans (vaporFraction_mono warmer thinner clearer)
  exact ⟨phase', resolved', tag'.mpr ⟨enabled, vaporShare_le_vaporFraction_iff.mp share⟩⟩

/-- Only the temperature of the grains can leave a phase open. -/
theorem phaseUnresolvable_iff :
    (∃ t f, s.evaluate selector ambient grains source tau = .error (.phaseUnresolvable t f)) ↔
      ¬ (isFinite grains.kelvin = true ∧ 0 < grains.kelvin) := by
  constructor
  · rintro ⟨t, f, failed⟩ ⟨_, warm⟩
    cases selected : selector.select grains with
    | error e =>
      obtain rfl := Except.error.inj ((evaluate_of_select_error warm selected).symm.trans failed)
      exact PressureSelector.select_ne_phaseUnresolvable t f selected
    | ok pressure =>
      obtain ⟨phase, resolved, _⟩ := s.evaluate_of_select ambient source tau warm selected
      exact nomatch failed.symm.trans resolved
  · intro unphysical
    exact ⟨_, none, evaluate_eq_unphysical_iff.mpr unphysical⟩

end Evaluation

/-! ## Main result -/

/-- How the vapor fraction and the phase depend on the temperature of the grains, the ambient
pressure and the optical depth. -/
structure IsMonotone : Prop where
  fraction : ∀ t ambient tau, s.vaporFraction t ambient tau ∈ Set.Icc 0 1
  temperature : ∀ ambient tau, Monotone fun t => s.vaporFraction t ambient tau
  pressure : ∀ t tau, Antitone fun pascals => s.vaporFraction t ⟨pascals⟩ tau
  depth : ∀ t ambient, Antitone fun tau => s.vaporFraction t ambient tau
  /-- A phase is vapor just from the threshold, with phase changes. -/
  tagged : ∀ selector ambient grains source tau phase pressure,
    s.evaluate selector ambient grains source tau = .ok (phase, pressure) →
      (phase.tag = .vapor ↔ s.enabled = true ∧ s.threshold ambient tau ≤ grains.kelvin)
  warmer : ∀ selector ambient grains source tau phase pressure,
    s.evaluate selector ambient grains source tau = .ok (phase, pressure) → phase.tag = .vapor →
      ∀ (grains' : Temperature ℝ) source' pressure', grains.kelvin ≤ grains'.kelvin →
        selector.select grains' = .ok pressure' →
          ∃ phase', s.evaluate selector ambient grains' source' tau = .ok (phase', pressure') ∧
            phase'.tag = .vapor
  thinner : ∀ selector ambient grains source tau phase pressure,
    s.evaluate selector ambient grains source tau = .ok (phase, pressure) → phase.tag = .vapor →
      ∀ (ambient' : Pressure ℝ) (tau' : ℝ), ambient'.pascals ≤ ambient.pascals → tau' ≤ tau →
        ∃ phase', s.evaluate selector ambient' grains source tau' = .ok (phase', pressure) ∧
          phase'.tag = .vapor
  /-- A phase is left open just for grains whose temperature is not positive and finite. -/
  unresolved : ∀ selector ambient (grains : Temperature ℝ) source tau,
    (∃ t f, s.evaluate selector ambient grains source tau = .error (.phaseUnresolvable t f)) ↔
      ¬ (isFinite grains.kelvin = true ∧ 0 < grains.kelvin)

/-- **The vapor fraction is monotone and the phase has one threshold.** For every ramp and whatever
its scales, the vapor fraction is between zero and one, does not fall with the temperature across
both ends of the ramp, and does not rise with the pressure and the optical depth. So the disk is
vapor from one threshold, and what is vapor stays it at higher temperatures, under less pressure and
for a smaller depth. A phase is left open just for grains whose temperature is not positive and
finite. -/
theorem isMonotone : s.IsMonotone := by
  constructor
  case fraction => exact s.vaporFraction_mem
  case temperature =>
    intro ambient tau t t' warmer
    exact vaporFraction_mono warmer le_rfl le_rfl
  case pressure =>
    intro t tau pascals pascals' denser
    exact vaporFraction_mono le_rfl denser le_rfl
  case depth =>
    intro t ambient tau tau' thicker
    exact vaporFraction_mono le_rfl le_rfl thicker
  case tagged =>
    intro selector ambient grains source tau phase pressure resolved
    exact (evaluate_eq_ok resolved).2.2
  case warmer =>
    intro selector ambient grains source tau phase pressure resolved vapor grains' source' pressure'
      warmer selected
    exact evaluate_of_warmer resolved vapor warmer le_rfl le_rfl selected
  case thinner =>
    intro selector ambient grains source tau phase pressure resolved vapor ambient' tau' thinner
      clearer
    obtain ⟨_, selected, _⟩ := evaluate_eq_ok resolved
    exact evaluate_of_warmer resolved vapor le_rfl thinner clearer selected
  case unresolved => exact fun _ _ _ _ _ => phaseUnresolvable_iff

/-- Under a tenth of a bar and for an optical depth of a tenth the default ramp has its threshold at
1881.5 K. Grains of 1880 K are solid and grains of 1900 K are vapor. The latter stay vapor when they
are heated beyond the ramp, and when pressure and depth are taken away. -/
theorem isMonotone_default :
    let s : PhaseSettings ℝ := .default
    let selector : PressureSelector ℝ := .ladder [] SublimationSettings.default.baseline
    let phaseAt (kelvin pascals tau : ℝ) (tag : PhaseTag) : Prop := ∃ phase pressure,
      s.evaluate selector ⟨pascals⟩ ⟨kelvin⟩ .analytic tau = .ok (phase, pressure) ∧ phase.tag = tag
    s.threshold ⟨10000⟩ 0.1 = 1881.5 ∧ phaseAt 1880 10000 0.1 .solid ∧
      phaseAt 1900 10000 0.1 .vapor ∧ phaseAt 2500 10000 0.1 .vapor ∧ phaseAt 1900 0 0 .vapor ∧
      ∃ t f, s.evaluate selector ⟨10000⟩ ⟨0⟩ .analytic 0.1 = .error (.phaseUnresolvable t f) := by
  intro s selector phaseAt
  have laws := isMonotone s
  have threshold : s.threshold ⟨10000⟩ 0.1 = 1881.5 := by
    norm_num [s, PhaseSettings.default, PhaseSettings.threshold, damping, dampingBy, top, fmax_real,
      vaporShare_real, Quantity.bars]
  have selected (kelvin : ℝ) : ∃ pressure, selector.select ⟨kelvin⟩ = .ok pressure := ⟨_, rfl⟩
  have resolved (kelvin : ℝ) (warm : 0 < kelvin) : ∃ phase pressure,
      s.evaluate selector ⟨10000⟩ ⟨kelvin⟩ .analytic 0.1 = .ok (phase, pressure) ∧
        (phase.tag = .vapor ↔ 1881.5 ≤ kelvin) := by
    obtain ⟨pressure, here⟩ := selected kelvin
    obtain ⟨phase, resolved, _⟩ := s.evaluate_of_select ⟨10000⟩ .analytic 0.1 warm here
    have tagged := laws.tagged _ _ _ _ _ _ _ resolved
    rw [threshold] at tagged
    exact ⟨phase, pressure, resolved, by simpa [s, PhaseSettings.default] using tagged⟩
  obtain ⟨cool, pressure₀, cold, below⟩ := resolved 1880 (by norm_num)
  obtain ⟨phase, pressure, hot, above⟩ := resolved 1900 (by norm_num)
  have vapor := above.mpr (by norm_num)
  refine ⟨threshold, ⟨cool, pressure₀, cold, ?_⟩, ⟨phase, pressure, hot, vapor⟩, ?_, ?_, ?_⟩
  · cases tag : cool.tag with
    | solid => rfl
    | vapor => exact absurd (below.mp tag) (by norm_num)
  · obtain ⟨pressure', here⟩ := selected 2500
    obtain ⟨phase', resolved', vapor'⟩ := laws.warmer _ _ _ _ _ _ _ hot vapor ⟨2500⟩ .analytic
      pressure' (by norm_num) here
    exact ⟨phase', pressure', resolved', vapor'⟩
  · obtain ⟨phase', resolved', vapor'⟩ :=
      laws.thinner _ _ _ _ _ _ _ hot vapor ⟨0⟩ 0 (by norm_num) (by norm_num)
    exact ⟨phase', pressure, resolved', vapor'⟩
  · exact (laws.unresolved _ _ _ _ _).mpr (by simp)

end PhaseSettings
end DebrisDisk
