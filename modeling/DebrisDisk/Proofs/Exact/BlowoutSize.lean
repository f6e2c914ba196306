import DebrisDisk.Proofs.Exact.Reals

/-!
# The blow-out size and the bins

The force ratio of a grain falls as the inverse of its size, and the blow-out size is the size at
which the ratio reaches the threshold. Shielding scales the ratio, and so it scales the size up to
which grains are unbound: a bin is unbound exactly when its centre is smaller than the blow-out size
times the flux that is left.

Unbound grains leave within an orbital time times an efficiency between a half and two. The
automatic efficiency falls as the ratio grows, so that smaller grains leave no later than larger
ones.

## Main definitions

* `RadiationSettings.Unbinds`: which bins are unbound, and how long they take to leave.

## Main results

* `forceRatio_eq_div`, `blowoutRadius_eq_div`: ratio and size as quotients of one number.
* `BlowoutEfficiency.value_mem`, `BlowoutEfficiency.value_anti`: the range of the efficiency, and
  its fall with the ratio.
* `RadiationSettings.unbinds_below_blowoutSize`: the bins under radiation.
-/

namespace DebrisDisk
open Scalar

/-! ## Force ratios -/

/-- The force ratio of a grain of one metre, before shielding. -/
noncomputable def ratioOfMetre (density : ℝ) (surface : Temperature ℝ) (efficiency : ℝ) : ℝ :=
  3.0 * marsLuminosity surface * efficiency /
    (16.0 * pi * lightSpeed * gravitation * marsMass * density)

theorem Quantity.powi_four {d : Dimension} (x : Quantity d ℝ) : x.powi 4 = x.base ^ 4 := by
  simp [Quantity.powi]

section Ratio
variable {density efficiency : ℝ} {surface : Temperature ℝ} (dense : 0 < density)
include dense

theorem forceRatio_eq_div {size : ℝ} (positive : 0 < size) :
    forceRatio ⟨size⟩ density surface efficiency =
      ratioOfMetre density surface efficiency / size := by
  have physical : ¬ (size ≤ 0 ∨ density ≤ 0) := by
    rw [not_or, not_le, not_le]
    exact ⟨positive, dense⟩
  rw [forceRatio, if_neg physical, ratioOfMetre, div_div]

theorem blowoutRadius_eq_div {threshold : ℝ} (positive : 0 < threshold) :
    (blowoutRadius density surface efficiency threshold).metres =
      ratioOfMetre density surface efficiency / threshold := by
  have physical : ¬ (density ≤ 0 ∨ threshold ≤ 0) := by
    rw [not_or, not_le, not_le]
    exact ⟨dense, positive⟩
  rw [blowoutRadius, if_neg physical, ratioOfMetre, div_div]

theorem ratioOfMetre_pos (hot : 0 < surface.kelvin) (efficient : 0 < efficiency) :
    0 < ratioOfMetre density surface efficiency := by
  have luminous : 0 < marsLuminosity surface := by
    rw [marsLuminosity, Quantity.powi_four, pi, marsRadius, stefanBoltzmann]
    positivity
  rw [ratioOfMetre, pi, lightSpeed, gravitation, marsMass]
  positivity

end Ratio

/-! ## The blow-out efficiency -/

namespace BlowoutEfficiency

/-- The automatic efficiency, of a ratio and an efficiency of radiation that are positive. -/
theorem ofRatio_eq {beta efficiency : ℝ} (acts : 0 < beta) (efficient : 0 < efficiency) :
    ofRatio beta efficiency =
      clamp (max (1 / (1 / 2 + beta)) (1 / 10) * clamp efficiency 0.5 1.5) least greatest := by
  have scaled : (1 : ℝ) + 0.5 * (beta / circularThreshold - 1) = 1 / 2 + beta := by
    rw [circularThreshold]
    ring
  have tenth : (0.1 : ℝ) = 1 / 10 := by norm_num
  simp only [ofRatio, isFinite_real, acts, efficient, true_and, if_true, fmax_real, scaled, tenth]

theorem least_le_greatest : (least : ℝ) ≤ greatest := by
  norm_num [least, greatest]

theorem value_mem (c : BlowoutEfficiency ℝ) (beta efficiency : ℝ) :
    c.value beta efficiency ∈ Set.Icc (1 / 2 : ℝ) 2 := by
  have half : (least : ℝ) = 1 / 2 := by norm_num [least]
  have two : (greatest : ℝ) = 2 := by norm_num [greatest]
  rw [← half, ← two]
  cases c with
  | fixed chi => exact clamp_mem least_le_greatest
  | automatic => exact clamp_mem least_le_greatest

/-- The efficiency falls as the force ratio grows. -/
theorem value_anti (c : BlowoutEfficiency ℝ) {beta beta' efficiency : ℝ} (acts : 0 < beta)
    (stronger : beta ≤ beta') (efficient : 0 < efficiency) :
    c.value beta' efficiency ≤ c.value beta efficiency := by
  cases c with
  | fixed chi => exact le_rfl
  | automatic =>
    rw [value, value, ofRatio_eq acts efficient, ofRatio_eq (acts.trans_le stronger) efficient,
      clamp_real least_le_greatest, clamp_real least_le_greatest]
    have bounded : clamp efficiency 0.5 1.5 ∈ Set.Icc (0.5 : ℝ) 1.5 := clamp_mem (by norm_num)
    have positive : 0 ≤ clamp efficiency 0.5 1.5 := le_trans (by norm_num) bounded.1
    have less : 1 / (1 / 2 + beta') ≤ 1 / (1 / 2 + beta) :=
      one_div_le_one_div_of_le (by positivity) (by linarith)
    exact max_le_max_left _ (min_le_min_right _
      (mul_le_mul_of_nonneg_right (max_le_max_right _ less) positive))

end BlowoutEfficiency

/-! ## The bins -/

/-- Where a property is inherited by all earlier elements, those that have it come first. -/
theorem isPrefix_filter {β : Type} {p : β → Bool} {l : List β}
    (inherited : l.Pairwise fun x y => p y = true → p x = true) : l.filter p <+: l := by
  induction l with
  | nil => exact List.prefix_rfl
  | cons x rest ih =>
    obtain ⟨first, later⟩ := List.pairwise_cons.mp inherited
    by_cases has : p x = true
    · rw [List.filter_cons_of_pos has]
      exact (List.prefix_cons_inj x).mpr (ih later)
    · have none : rest.filter p = [] :=
        List.filter_eq_nil_iff.mpr fun y member has' => has (first y member has')
      rw [List.filter_cons_of_neg has, none]
      exact List.nil_prefix

namespace RadiationSettings

/-- The regime and the blow-out time of grains of one size. -/
noncomputable def blowoutAt (s : RadiationSettings ℝ) (density : ℝ) (surface : Temperature ℝ)
    (flux : ℝ) (omega : AngularVelocity ℝ) (size : ℝ) : BinBlowout ℝ :=
  let beta := ratioOfMetre density surface s.efficiency / size * flux
  if size < flux * (s.blowoutSize density surface).metres then
    { regime := .unbound beta s.threshold
      time := .finite (s.blowoutEfficiency.value beta s.efficiency / omega.radiansPerSecond) }
  else { regime := .bound beta s.threshold, time := .infinite }

/-- Grains below some size are unbound, and leave within an orbital time times an efficiency. -/
structure Unbinds (s : RadiationSettings ℝ) (omega : AngularVelocity ℝ) (limit : ℝ)
    (centres : List ℝ) (bins : List (BinBlowout ℝ)) : Prop where
  size : bins.length = centres.length
  unbound : ∀ (i : ℕ) centre bin, centres[i]? = some centre → bins[i]? = some bin →
    (bin.regime.isUnbound = true ↔ centre < limit)
  /-- The unbound bins are the first ones. -/
  first : bins.filter (·.regime.isUnbound) <+: bins
  acts : ∀ bin ∈ bins, bin.time.isFinite = true ↔ bin.regime.isUnbound = true
  /-- The orbital angle in which a bin leaves is between a half and two. -/
  angle : ∀ bin ∈ bins, ∀ t, bin.time = .finite t →
    omega.radiansPerSecond * t ∈ Set.Icc (1 / 2 : ℝ) 2
  grows : ∀ (i j : ℕ) bin bin' t t', i ≤ j → bins[i]? = some bin → bins[j]? = some bin' →
    bin.time = .finite t → bin'.time = .finite t' → t ≤ t'
  constant : ∀ chi, s.blowoutEfficiency = .fixed chi → ∀ bin ∈ bins, ∀ bin' ∈ bins, ∀ t t',
    bin.time = .finite t → bin'.time = .finite t' → t = t'

section Bins
variable {s : RadiationSettings ℝ} {density flux : ℝ} {surface : Temperature ℝ}
  {omega : AngularVelocity ℝ}

theorem isUnbound_blowoutAt {size : ℝ} :
    (s.blowoutAt density surface flux omega size).regime.isUnbound = true ↔
      size < flux * (s.blowoutSize density surface).metres := by
  simp only [blowoutAt]
  split_ifs with below
  · exact iff_of_true rfl below
  · exact iff_of_false Bool.false_ne_true below

theorem time_blowoutAt_eq_finite {size t : ℝ} :
    (s.blowoutAt density surface flux omega size).time = .finite t ↔
      size < flux * (s.blowoutSize density surface).metres ∧
        s.blowoutEfficiency.value (ratioOfMetre density surface s.efficiency / size * flux)
          s.efficiency / omega.radiansPerSecond = t := by
  simp only [blowoutAt]
  split_ifs with below
  · simp [below]
  · simp [below]

variable (mars : s.mars = true) (efficient : 0 < s.efficiency) (threshold : 0 < s.threshold)
  (dense : 0 < density) (hot : 0 < surface.kelvin)
include mars threshold dense

/-- A grain is below the blow-out size exactly when its shielded ratio exceeds the threshold. -/
theorem threshold_lt_iff {size : ℝ} (positive : 0 < size) :
    s.threshold < ratioOfMetre density surface s.efficiency / size * flux ↔
      size < flux * (s.blowoutSize density surface).metres := by
  rw [blowoutSize, if_pos mars, blowoutRadius_eq_div dense threshold, div_mul_eq_mul_div,
    lt_div_iff₀ positive, mul_div_assoc', lt_div_iff₀ threshold, mul_comm size, mul_comm flux]

/-- The bins under radiation, one by one. -/
theorem binBlowout_eq_map (computed : s.override = none) (turns : 0 < omega.radiansPerSecond)
    {centres : List ℝ} (positive : ∀ centre ∈ centres, 0 < centre) :
    s.binBlowout (s.binBetas density centres surface) flux omega =
      centres.map (s.blowoutAt density surface flux omega) := by
  rw [binBlowout, binBetas, List.map_map]
  refine List.map_congr_left fun centre member => ?_
  have here := positive centre member
  have ratio : s.betaAt density ⟨centre⟩ surface =
      ratioOfMetre density surface s.efficiency / centre := by
    simp only [betaAt, if_pos mars, computed]
    exact forceRatio_eq_div dense here
  simp only [Function.comp_apply, ratio, blowoutAt, BetaRegime.classify,
    threshold_lt_iff mars threshold dense here]
  set beta := ratioOfMetre density surface s.efficiency / centre * flux with hbeta
  have chi := (s.blowoutEfficiency.value_mem beta s.efficiency).1
  have leaves : 0 < s.blowoutEfficiency.value beta s.efficiency / omega.radiansPerSecond :=
    div_pos (lt_of_lt_of_le (by norm_num) chi) turns
  split_ifs
  · simp [blowoutTimescale, Timescale.ofSeconds, leaves]
  · rfl

include efficient hot

/-- Of two unbound grains the smaller one leaves no later. -/
theorem time_blowoutAt_mono (turns : 0 < omega.radiansPerSecond) (shielded : 0 ≤ flux)
    {size size' t t' : ℝ} (positive : 0 < size) (larger : size ≤ size')
    (time : (s.blowoutAt density surface flux omega size).time = .finite t)
    (time' : (s.blowoutAt density surface flux omega size').time = .finite t') : t ≤ t' := by
  obtain ⟨_, rfl⟩ := time_blowoutAt_eq_finite.mp time
  obtain ⟨below, rfl⟩ := time_blowoutAt_eq_finite.mp time'
  have positive' := positive.trans_le larger
  have acts := threshold.trans ((threshold_lt_iff mars threshold dense positive').mpr below)
  have stronger : ratioOfMetre density surface s.efficiency / size' ≤
      ratioOfMetre density surface s.efficiency / size :=
    div_le_div_of_nonneg_left (ratioOfMetre_pos dense hot efficient).le positive larger
  exact div_le_div_of_nonneg_right (s.blowoutEfficiency.value_anti acts
    (mul_le_mul_of_nonneg_right stronger shielded) efficient) turns.le

end Bins

/-- **The blow-out size separates the bins.** Under radiation from Mars the bins that are unbound
are those whose grains are smaller than the blow-out size times the flux that is left. They come
first in the grid and are the ones with a blow-out time, which grows with the size and is between
half an orbital time and two of them. -/
theorem unbinds_below_blowoutSize {s : RadiationSettings ℝ} (mars : s.mars = true)
    (computed : s.override = none) (efficient : 0 < s.efficiency) (threshold : 0 < s.threshold)
    {density : ℝ} (dense : 0 < density) {surface : Temperature ℝ} (hot : 0 < surface.kelvin)
    {omega : AngularVelocity ℝ} (turns : 0 < omega.radiansPerSecond) {flux : ℝ}
    (shielded : 0 ≤ flux) {centres : List ℝ} (positive : ∀ centre ∈ centres, 0 < centre)
    (ascending : centres.Pairwise (· ≤ ·)) :
    s.Unbinds omega (flux * (s.blowoutSize density surface).metres) centres
      (s.binBlowout (s.binBetas density centres surface) flux omega) := by
  rw [binBlowout_eq_map mars threshold dense computed turns positive]
  constructor
  case size => exact List.length_map _
  case unbound =>
    intro i centre bin here there
    rw [List.getElem?_map, here, Option.map_some, Option.some.injEq] at there
    rw [← there, isUnbound_blowoutAt]
  case first =>
    refine isPrefix_filter (List.pairwise_map.mpr (ascending.imp fun larger below => ?_))
    rw [isUnbound_blowoutAt] at below ⊢
    exact larger.trans_lt below
  case acts =>
    intro bin member
    obtain ⟨centre, _, rfl⟩ := List.mem_map.mp member
    simp only [blowoutAt]
    split_ifs
    · exact iff_of_true rfl rfl
    · exact iff_of_false Bool.false_ne_true Bool.false_ne_true
  case angle =>
    intro bin member t time
    obtain ⟨centre, _, rfl⟩ := List.mem_map.mp member
    obtain ⟨_, rfl⟩ := time_blowoutAt_eq_finite.mp time
    rw [mul_div_cancel₀ _ turns.ne']
    exact s.blowoutEfficiency.value_mem _ _
  case grows =>
    intro i j bin bin' t t' ordered here there time time'
    rw [List.getElem?_map, Option.map_eq_some_iff] at here there
    obtain ⟨centre, held, rfl⟩ := here
    obtain ⟨centre', held', rfl⟩ := there
    have larger : centre ≤ centre' := by
      rcases ordered.eq_or_lt with rfl | before
      · exact (Option.some.inj (held.symm.trans held')).le
      · obtain ⟨inside, rfl⟩ := List.getElem?_eq_some_iff.mp held
        obtain ⟨inside', rfl⟩ := List.getElem?_eq_some_iff.mp held'
        exact List.pairwise_iff_getElem.mp ascending i j inside inside' before
    exact time_blowoutAt_mono mars efficient threshold dense hot turns shielded
      (positive centre (List.mem_of_getElem? held)) larger time time'
  case constant =>
    intro chi fixed bin member bin' member' t t' time time'
    obtain ⟨centre, _, rfl⟩ := List.mem_map.mp member
    obtain ⟨centre', _, rfl⟩ := List.mem_map.mp member'
    obtain ⟨_, rfl⟩ := time_blowoutAt_eq_finite.mp time
    obtain ⟨_, rfl⟩ := time_blowoutAt_eq_finite.mp time'
    rw [fixed]
    rfl

/-- Around Mars at four thousand kelvin, with half of the flux left and the automatic efficiency,
grains of a micron are unbound and grains of a millimetre are not. -/
theorem unbinds_micron_grains :
    let s : RadiationSettings ℝ :=
      { RadiationSettings.default with blowoutEfficiency := .automatic }
    let limit := 0.5 * (s.blowoutSize 3000 ⟨4000⟩).metres
    limit ∈ Set.Ioo 1e-6 1e-3 ∧ s.Unbinds ⟨1e-4⟩ limit [1e-7, 1e-6, 1e-3]
      (s.binBlowout (s.binBetas 3000 [1e-7, 1e-6, 1e-3] ⟨4000⟩) 0.5 ⟨1e-4⟩) := by
  intro s limit
  have mars : s.mars = true := rfl
  have threshold : 0 < s.threshold := by norm_num [s, RadiationSettings.default, circularThreshold]
  have efficient : 0 < s.efficiency := one_pos
  have dense : (0 : ℝ) < 3000 := by norm_num
  have bounds : limit ∈ Set.Ioo 1e-6 1e-3 := by
    have fourth : (⟨4000⟩ : Temperature ℝ).powi 4 = 4000 ^ 4 := Quantity.powi_four _
    simp only [limit]
    rw [blowoutSize, if_pos mars, blowoutRadius_eq_div dense threshold, ratioOfMetre,
      marsLuminosity, fourth, pi, marsRadius, stefanBoltzmann, lightSpeed, gravitation, marsMass]
    norm_num [s, RadiationSettings.default, circularThreshold]
  refine ⟨bounds, unbinds_below_blowoutSize mars rfl efficient threshold dense (by norm_num)
    (by norm_num) (by norm_num) ?_ ?_⟩
  · norm_num
  · norm_num

end RadiationSettings
end DebrisDisk
