import DebrisDisk.Proofs.Exact.PowerLaw

/-!
# Deliveries in exact arithmetic

A delivery is spread over the active grid in two steps: a power law clipped at the floor, then the
same law restricted to the bins wholly above the floor and normalised again. The second step is
skipped when it would leave nothing, which is when only the top bin reaches above the floor; the
clipped law then has no share anywhere else. Either way the shares add up to one, so what arrives is
delivered in full, and above the floor.

## Main results

* `SupplySettings.sum_shares`: the shares add up to one as long as the grid reaches above the floor.
* `SupplySettings.shares_of_whole`, `SupplySettings.shares_of_cut`: the two kinds of delivery.
* `SupplySettings.inject_exact`: supply adds what it reports, and only adds.
* `SupplySettings.inject_delivers`: what arrives, where, and when nothing does.
-/

namespace DebrisDisk
open Scalar

/-! ## The bins wholly above the floor -/

namespace SizeBins

/-- The power law over the bins wholly above the floor. -/
noncomputable def wholeIntegral (b : SizeBins ℝ) (floor q : ℝ) : ℝ :=
  ((b.spans.filter (floor ≤ ·.1)).map fun s => powerLawIntegral s.1 s.2 q).sum

theorem wholeIntegral_eq (b : SizeBins ℝ) (floor q : ℝ) :
    b.wholeIntegral floor q =
      (b.spans.map fun s => if s.1 < floor then 0 else powerLawIntegral s.1 s.2 q).sum := by
  simp only [wholeIntegral]
  induction b.spans with
  | nil => rfl
  | cons s rest ih =>
    by_cases cut : s.1 < floor
    · simp [ih, cut, not_le.mpr cut]
    · simp [ih, cut, not_lt.mp cut]

theorem IsGrid.wholeIntegral_pos {b : SizeBins ℝ} (grid : b.IsGrid) {floor : ℝ} (q : ℝ)
    (whole : ∃ s ∈ b.spans, floor ≤ s.1) : 0 < b.wholeIntegral floor q := by
  obtain ⟨s, hs, above⟩ := whole
  have bins : ∀ x ∈ (b.spans.filter (floor ≤ ·.1)).map fun s => powerLawIntegral s.1 s.2 q,
      0 ≤ x := by
    intro x hx
    obtain ⟨other, hother, rfl⟩ := List.mem_map.mp hx
    exact powerLawIntegral_nonneg _ _ (grid.widths other (List.mem_filter.mp hother).1).1
  refine (powerLawIntegral_pos q (grid.widths s hs).1 (grid.widths s hs).2).trans_le
    (List.single_le_sum bins _ (List.mem_map.mpr ⟨s, ?_, rfl⟩))
  simpa using ⟨hs, above⟩

end SizeBins

/-! ## Shares -/

namespace SupplySettings
variable {s : SupplySettings ℝ} {b : SizeBins ℝ} {floor : ℝ}

/-- A delivery has no share below the floor. -/
theorem shares_of_below {w : ℝ} {j : ℕ} {span : ℝ × ℝ} (share : (s.shares b floor)[j]? = some w)
    (hspan : b.spans[j]? = some span) (below : span.2 ≤ floor) : w = 0 := by
  simp only [shares] at share
  split_ifs at share
  · rw [List.getElem?_map, Option.map_eq_some_iff] at share
    obtain ⟨whole, hwhole, rfl⟩ := share
    obtain ⟨clipped, active, hclipped, _, rfl⟩ := List.getElem?_zipWith_eq_some.mp hwhole
    rw [SizeBins.powerLawWeights_of_below hclipped hspan below]
    simp
  · exact SizeBins.powerLawWeights_of_below share hspan below

/-- Above the whole grid there is no share at all. -/
theorem shares_of_above (grid : b.IsGrid) (above : b.maxSize.metres ≤ floor) :
    ∀ w ∈ s.shares b floor, w = 0 := by
  intro w hw
  obtain ⟨j, hj⟩ := List.mem_iff_getElem?.mp hw
  have inside : j < b.spans.length := by
    simpa using (List.getElem?_eq_some_iff.mp hj).1
  exact shares_of_below hj (List.getElem?_eq_getElem inside)
    ((grid.le_maxSize (List.getElem_mem inside)).trans above)

section Grid
variable (grid : b.IsGrid) {span : ℝ × ℝ} (h : span ∈ b.spans) (reaches : floor < b.maxSize.metres)
include grid h reaches

/-- The clipped shares of the bins wholly above the floor. -/
private theorem whole_shares (s : SupplySettings ℝ) :
    List.zipWith (fun w active => if active < 1 then 0 else w) (b.powerLawWeights floor s.slope)
      (b.activeWeights floor) =
    b.spans.map fun t => (if t.1 < floor then 0 else powerLawIntegral t.1 t.2 s.slope) /
      powerLawIntegral (max b.minSize.metres floor) b.maxSize.metres s.slope := by
  rw [grid.powerLawWeights_eq h s.slope reaches, SizeBins.activeWeights, List.zipWith_map,
    List.zipWith_self]
  refine List.map_congr_left fun t ht => ?_
  have width := grid.widths t ht
  simp only [SizeBins.activeWeight_lt_one_iff floor width.1 width.2]
  split_ifs with cut
  · rw [zero_div]
  · rw [max_eq_left (not_lt.mp cut)]

/-- The shares add up to one as long as the grid reaches above the floor. -/
theorem sum_shares : (s.shares b floor).sum = 1 := by
  simp only [shares, sum_real]
  split_ifs with some
  · simp only [div_eq_mul_inv]
    rw [List.sum_map_mul_right, List.map_id', mul_inv_cancel₀ some.ne']
  · exact grid.sum_powerLawWeights h s.slope reaches

/-- With a bin wholly above the floor, the bins wholly above share in proportion to their power
law. -/
theorem shares_of_whole (whole : ∃ t ∈ b.spans, floor ≤ t.1) :
    s.shares b floor = b.spans.map fun t =>
      if t.1 < floor then 0
      else powerLawIntegral t.1 t.2 s.slope / b.wholeIntegral floor s.slope := by
  set clipped := powerLawIntegral (max b.minSize.metres floor) b.maxSize.metres s.slope
    with hclipped
  have clippedPositive : 0 < clipped := grid.powerLawIntegral_pos_of_lt h s.slope reaches
  have wholePositive := grid.wholeIntegral_pos s.slope whole
  have sum : (b.spans.map fun t =>
      (if t.1 < floor then 0 else powerLawIntegral t.1 t.2 s.slope) / clipped).sum =
        b.wholeIntegral floor s.slope / clipped := by
    simp only [SizeBins.wholeIntegral_eq, div_eq_mul_inv, List.sum_map_mul_right]
  simp only [shares, sum_real]
  rw [whole_shares grid h reaches s, sum, if_pos (div_pos wholePositive clippedPositive),
    List.map_map]
  refine List.map_congr_left fun t _ => ?_
  simp only [Function.comp_apply]
  rw [div_div_div_cancel_right₀ clippedPositive.ne', ite_div, zero_div]

/-- When the floor cuts the top bin, that bin has the whole share. -/
theorem shares_of_cut (cut : ∀ t ∈ b.spans, t.1 < floor) :
    s.shares b floor = b.spans.map fun t => if t.2 = b.maxSize.metres then 1 else 0 := by
  have clippedPositive := grid.powerLawIntegral_pos_of_lt h s.slope reaches
  have nothing : (b.spans.map fun t => (if t.1 < floor then 0 else
      powerLawIntegral t.1 t.2 s.slope) / powerLawIntegral (max b.minSize.metres floor)
        b.maxSize.metres s.slope).sum = 0 := by
    refine List.sum_eq_zero fun x hx => ?_
    obtain ⟨t, ht, rfl⟩ := List.mem_map.mp hx
    rw [if_pos (cut t ht), zero_div]
  simp only [shares, sum_real]
  rw [whole_shares grid h reaches s, nothing, if_neg (lt_irrefl 0),
    grid.powerLawWeights_eq h s.slope reaches]
  refine List.map_congr_left fun t ht => ?_
  split_ifs with top
  · have lowest : b.minSize.metres ≤ floor := (grid.minSize_le ht).trans (cut t ht).le
    rw [max_eq_right (cut t ht).le, top]
    rw [max_eq_right lowest] at clippedPositive ⊢
    exact div_self clippedPositive.ne'
  · obtain ⟨next, hnext, above⟩ := grid.exists_next ht top
    have below : t.2 ≤ floor := above ▸ (cut next hnext).le
    rw [SizeBins.powerLawIntegral_of_le _ (le_max_of_le_right below), zero_div]

end Grid

/-! ## Deliveries -/

/-- Supply adds what it reports, and only adds. -/
theorem inject_exact (s : SupplySettings ℝ) {b : SizeBins ℝ} (grid : b.IsGrid) (kg floor : ℝ) :
    0 ≤ (s.inject b kg floor).2 ∧
    (s.inject b kg floor).1.masses.sum = b.masses.sum + (s.inject b kg floor).2 ∧
    ∀ (j : ℕ) held, (s.inject b kg floor).1.masses[j]? = some held →
      ∃ m, b.masses[j]? = some m ∧ m ≤ held := by
  have idle : ∀ (j : ℕ) held, b.masses[j]? = some held → ∃ m, b.masses[j]? = some m ∧ m ≤ held :=
    fun j held h => ⟨held, h, le_rfl⟩
  simp only [inject, sum_real]
  split_ifs with nothing nowhere
  · exact ⟨le_rfl, (add_zero _).symm, idle⟩
  · exact ⟨le_rfl, (add_zero _).symm, idle⟩
  · have parts : ∀ part ∈ (s.shares b floor).map (kg * ·), 0 ≤ part := by
      intro part hpart
      obtain ⟨w, hw, rfl⟩ := List.mem_map.mp hpart
      exact mul_nonneg (not_le.mp nothing).le (s.shares_nonneg grid floor w hw)
    refine ⟨List.sum_nonneg parts, (List.sum_add_sum_eq_sum_zipWith_of_length_eq _ _ (by
      simp [grid.shaped.spans])).symm, ?_⟩
    intro j held h
    obtain ⟨m, part, hm, hpart, rfl⟩ := List.getElem?_zipWith_eq_some.mp h
    exact ⟨m, hm, le_add_of_nonneg_right (parts part (List.mem_of_getElem? hpart))⟩

/-- Without a mass, or above the whole grid, nothing is delivered. -/
theorem inject_of_nothing (grid : b.IsGrid) {kg : ℝ}
    (nothing : kg ≤ 0 ∨ b.maxSize.metres ≤ floor) : s.inject b kg floor = (b, 0) := by
  simp only [inject]
  rcases nothing with empty | above
  · rw [if_pos empty]
  · have none : (s.shares b floor).all isZero = true := by
      simpa only [List.all_eq_true, isZero_real] using shares_of_above grid above
    rw [if_pos none, ite_self]

section Delivery
variable (grid : b.IsGrid) {span : ℝ × ℝ} (h : span ∈ b.spans) (reaches : floor < b.maxSize.metres)
  {kg : ℝ} (positive : 0 < kg)
include grid h reaches positive

/-- A delivery that reaches the grid adds to each bin its share, and is reported in full. -/
theorem inject_eq (s : SupplySettings ℝ) : s.inject b kg floor =
    ({ b with masses := List.zipWith (fun m w => m + kg * w) b.masses (s.shares b floor) },
      kg) := by
  have sum : (s.shares b floor).sum = 1 := sum_shares grid h reaches
  have some : ¬ (s.shares b floor).all isZero = true := by
    intro none
    simp only [List.all_eq_true, isZero_real] at none
    rw [List.sum_eq_zero none] at sum
    exact zero_ne_one sum
  simp only [inject, sum_real]
  rw [if_neg (not_le.mpr positive), if_neg some, List.sum_map_mul_left _ (fun w => w),
    List.map_id', sum, mul_one, List.zipWith_map_right]

/-- The bins after a delivery whose shares are known bin by bin. -/
theorem getElem?_inject {share : ℝ × ℝ → ℝ} (shares : s.shares b floor = b.spans.map share) {j : ℕ}
    {m : ℝ} {t : ℝ × ℝ} (held : b.masses[j]? = some m) (bin : b.spans[j]? = some t) :
    (s.inject b kg floor).1.masses[j]? = some (m + kg * share t) := by
  rw [inject_eq grid h reaches positive, shares, List.zipWith_map_right]
  exact List.getElem?_zipWith_eq_some.mpr ⟨m, t, held, bin, rfl⟩

/-- A bin wholly below the floor gets nothing. -/
theorem getElem?_inject_of_below {j : ℕ} {t : ℝ × ℝ} (bin : b.spans[j]? = some t)
    (below : t.2 ≤ floor) : (s.inject b kg floor).1.masses[j]? = b.masses[j]? := by
  obtain ⟨m, held⟩ := grid.shaped.exists_mass bin
  have inside : j < (s.shares b floor).length := by
    rw [length_shares]
    exact (List.getElem?_eq_some_iff.mp bin).1
  have share := List.getElem?_eq_getElem inside
  rw [shares_of_below share bin below] at share
  rw [inject_eq grid h reaches positive, held]
  exact List.getElem?_zipWith_eq_some.mpr ⟨m, 0, held, share, by ring⟩

end Delivery

private theorem sum_zipWith_raised (weight gain : ℝ × ℝ → ℝ) {ms : List ℝ} {spans : List (ℝ × ℝ)}
    (same : spans.length = ms.length) :
    (List.zipWith (fun m t => (m + gain t) * weight t) ms spans).sum =
      (List.zipWith (fun m t => m * weight t) ms spans).sum +
        (spans.map fun t => gain t * weight t).sum := by
  induction ms generalizing spans with
  | nil => simp_all
  | cons m ms ih =>
    rcases spans with _ | ⟨t, spans⟩
    · simp at same
    · have rest := ih (by simpa using same)
      simp only [List.zipWith_cons_cons, List.map_cons, List.sum_cons, rest]
      ring

/-- With a bin wholly above the floor, the active mass rises by just what is delivered. -/
theorem mass_activeSummary_inject (grid : b.IsGrid) (reaches : floor < b.maxSize.metres) {kg : ℝ}
    (positive : 0 < kg) (whole : ∃ t ∈ b.spans, floor ≤ t.1) :
    ((s.inject b kg floor).1.activeSummary floor).mass = (b.activeSummary floor).mass + kg := by
  obtain ⟨span, h, _⟩ := id whole
  set share : ℝ × ℝ → ℝ := fun t =>
    if t.1 < floor then 0 else powerLawIntegral t.1 t.2 s.slope / b.wholeIntegral floor s.slope
    with hshare
  have shares : s.shares b floor = b.spans.map share := shares_of_whole grid h reaches whole
  have sum : (b.spans.map share).sum = 1 := shares ▸ sum_shares grid h reaches
  -- Only bins that are wholly active gain, so weighting the gains changes nothing.
  have weighted : b.spans.map (fun t => kg * share t * activeWeight t.1 t.2 floor) =
      b.spans.map fun t => kg * share t := by
    refine List.map_congr_left fun t ht => ?_
    simp only [hshare]
    split_ifs with cut
    · rw [mul_zero, zero_mul]
    · rw [SizeBins.activeWeight_of_le (grid.widths t ht).2 (not_lt.mp cut), mul_one]
  have active (ms : List ℝ) : List.zipWith (· * ·) ms (b.activeWeights floor) =
      List.zipWith (fun m t => m * activeWeight t.1 t.2 floor) ms b.spans := by
    rw [SizeBins.activeWeights, List.zipWith_map_right]
  have gained : List.zipWith (fun m t => m * activeWeight t.1 t.2 floor)
      (List.zipWith (fun m w => m + kg * w) b.masses (b.spans.map share)) b.spans =
        List.zipWith (fun m t => (m + kg * share t) * activeWeight t.1 t.2 floor)
          b.masses b.spans := by
    refine List.ext_getElem (by simp) fun j _ _ => by simp
  have delivered : (b.spans.map fun t => kg * share t).sum = kg := by
    rw [List.sum_map_mul_left b.spans share kg, sum, mul_one]
  have sameWeights : (s.inject b kg floor).1.activeWeights floor = b.activeWeights floor := by
    simp only [SizeBins.activeWeights, (s.sameGrid_inject grid.shaped kg floor).spans]
  simp only [SizeBins.activeSummary, SizeBins.activeMasses, sum_real]
  rw [sameWeights, active, active, inject_eq grid h reaches positive, shares]
  simp only
  rw [gained, sum_zipWith_raised _ _ grid.shaped.spans, weighted, delivered]

/-- What a delivery of `kg` kilograms that reaches the grid does to its bins. -/
structure Delivers (s : SupplySettings ℝ) (b after : SizeBins ℝ) (kg floor : ℝ) : Prop where
  grid : b.SameGrid after
  total : after.totalMass.kilograms = b.totalMass.kilograms + kg
  raises : ∀ (j : ℕ) m, b.masses[j]? = some m → ∃ left, after.masses[j]? = some left ∧ m ≤ left
  spares : ∀ (j : ℕ) span, b.spans[j]? = some span → span.2 ≤ floor →
    after.masses[j]? = b.masses[j]?
  /-- The bins wholly above the floor share in proportion to their power law, if there are any. -/
  whole : (∃ t ∈ b.spans, floor ≤ t.1) →
    (after.activeSummary floor).mass = (b.activeSummary floor).mass + kg ∧
    ∀ (j : ℕ) m span, b.masses[j]? = some m → b.spans[j]? = some span →
      after.masses[j]? = some (if span.1 < floor then m else
        m + kg * (powerLawIntegral span.1 span.2 s.slope / b.wholeIntegral floor s.slope))
  /-- Otherwise the last bin gets all. -/
  cut : (∀ t ∈ b.spans, t.1 < floor) → ∀ (j : ℕ) m, b.masses[j]? = some m →
    after.masses[j]? = some (if j + 1 = b.size then m + kg else m)

/-- **A delivery that reaches the grid arrives in full, in the bins wholly above the floor or else
in the last one; otherwise nothing happens.** -/
theorem inject_delivers {low high : Length ℝ} {n : ℕ} {density : Density ℝ} {empty b : SizeBins ℝ}
    (spaced : SizeBins.logSpaced low high n density = .ok empty) (same : empty.SameGrid b)
    (s : SupplySettings ℝ) (kg floor : ℝ) :
    (0 < kg → floor < b.maxSize.metres →
      (s.inject b kg floor).2 = kg ∧ s.Delivers b (s.inject b kg floor).1 kg floor) ∧
    (kg ≤ 0 ∨ b.maxSize.metres ≤ floor → s.inject b kg floor = (b, 0)) := by
  have grid := same.isGrid (SizeBins.isGrid_logSpaced spaced).1
  obtain ⟨span, h⟩ := SizeBins.exists_span_of_logSpaced spaced
  rw [← same.spans] at h
  refine ⟨fun positive reaches => ?_, inject_of_nothing grid⟩
  have reported : (s.inject b kg floor).2 = kg := by
    rw [inject_eq grid h reaches positive]
  have sameGrid := s.sameGrid_inject grid.shaped kg floor
  obtain ⟨_, sum, adds⟩ := s.inject_exact grid kg floor
  rw [reported] at sum
  refine ⟨reported, sameGrid, ?_, ?_, ?_, ?_, ?_⟩
  · simpa only [SizeBins.totalMass, sum_real] using sum
  · intro j m held
    have inside : j < (s.inject b kg floor).1.masses.length := by
      rw [sameGrid.size]
      exact (List.getElem?_eq_some_iff.mp held).1
    obtain ⟨before, held', least⟩ := adds j _ (List.getElem?_eq_getElem inside)
    obtain rfl := Option.some.inj (held'.symm.trans held)
    exact ⟨_, List.getElem?_eq_getElem inside, least⟩
  · exact fun j t hspan below => getElem?_inject_of_below grid h reaches positive hspan below
  · intro whole
    refine ⟨mass_activeSummary_inject grid reaches positive whole, fun j m t held hspan => ?_⟩
    rw [getElem?_inject grid h reaches positive (shares_of_whole grid h reaches whole) held hspan]
    split_ifs
    · rw [mul_zero, add_zero]
    · rfl
  · intro cut j m held
    obtain ⟨t, hspan⟩ := grid.shaped.exists_span held
    rw [getElem?_inject grid h reaches positive (shares_of_cut grid h reaches cut) held hspan]
    simp only [grid.top_iff hspan]
    split_ifs
    · rw [mul_one]
    · rw [mul_zero, add_zero]

/-- A kilogram reaches forty bins up to three metres in full, and none reaches them above. -/
theorem exists_delivers_of_cascade : ∃ b : SizeBins ℝ,
    SizeBins.logSpaced ⟨1e-7⟩ ⟨3⟩ 40 ⟨3000⟩ = .ok b ∧
      (default.inject b 1 1e-7).2 = 1 ∧
      ((default.inject b 1 1e-7).1.activeSummary 1e-7).mass = (b.activeSummary 1e-7).mass + 1 ∧
      default.inject b 1 3 = (b, 0) := by
  obtain ⟨b, spaced⟩ : ∃ b : SizeBins ℝ, SizeBins.logSpaced ⟨1e-7⟩ ⟨3⟩ 40 ⟨3000⟩ = .ok b :=
    SizeBins.exists_logSpaced (by norm_num) (by norm_num) (by norm_num) (by norm_num)
  obtain ⟨span, h⟩ := SizeBins.exists_span_of_logSpaced spaced
  obtain ⟨bottom, top⟩ := SizeBins.ends_of_logSpaced spaced
  have reaches : (1e-7 : ℝ) < b.maxSize.metres := by
    rw [top]
    norm_num
  have whole : (1e-7 : ℝ) ≤ span.1 := by
    have least := (SizeBins.isGrid_logSpaced spaced).1.minSize_le h
    rwa [bottom] at least
  obtain ⟨reported, delivers⟩ := (inject_delivers spaced (.refl b) default 1 1e-7).1
    zero_lt_one reaches
  have above : b.maxSize.metres ≤ 3 := by rw [top]
  exact ⟨b, spaced, reported, (delivers.whole ⟨span, h, whole⟩).1,
    (inject_delivers spaced (.refl b) default 1 3).2 (.inr above)⟩

end SupplySettings
end DebrisDisk
