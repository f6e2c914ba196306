import DebrisDisk.Proofs.Exact.Reals
import DebrisDisk.Proofs.Validation

/-!
# The grid of sizes in exact arithmetic

The edges of the grid ascend from a positive size, so every bin has a positive width, and each lies
wholly below the next. Active shares then lie between zero and one, and the integral of a power law
over a bin is not negative, whatever its exponent.

## Main results

* `SizeBins.isGrid_logSpaced`: logarithmic spacing gives a grid.
* `SizeBins.activeWeight_mem`, `SizeBins.powerLawWeights_nonneg`, `SupplySettings.shares_nonneg`.
* `RunConfig.initialBins_exact`: the initial grains are a grid with no negative mass.
-/

namespace DebrisDisk
open Scalar

/-! ## Neighbours in a list -/

private theorem lt_of_mem_zip_tail {l : List ℝ} (ascending : l.Pairwise (· < ·)) :
    ∀ p ∈ l.zip l.tail, p.1 ∈ l ∧ p.1 < p.2 := by
  intro p hp
  obtain ⟨i, hi, rfl⟩ := List.mem_iff_getElem.mp hp
  simp only [List.length_zip, List.length_tail] at hi
  simp only [List.getElem_zip, List.getElem_tail]
  exact ⟨List.getElem_mem _,
    List.pairwise_iff_getElem.mp ascending i (i + 1) (by omega) (by omega) (by omega)⟩

private theorem pairwise_zip_tail {l : List ℝ} (ascending : l.Pairwise (· < ·)) :
    (l.zip l.tail).Pairwise fun s t => s.2 ≤ t.1 := by
  rw [List.pairwise_iff_getElem]
  intro i j hi hj before
  simp only [List.length_zip, List.length_tail] at hi hj
  simp only [List.getElem_zip, List.getElem_tail]
  rcases Nat.eq_or_lt_of_le (Nat.succ_le_of_lt before) with rfl | apart
  · exact le_rfl
  · exact (List.pairwise_iff_getElem.mp ascending (i + 1) j (by omega) (by omega) apart).le

/-! ## Single bins -/

namespace SizeBins

theorem activeWeight_mem {lo : ℝ} (hi floor : ℝ) (positive : 0 < lo) :
    activeWeight lo hi floor ∈ Set.Icc (0 : ℝ) 1 := by
  simp only [activeWeight, ln_real]
  split_ifs with below above
  · exact ⟨le_rfl, zero_le_one⟩
  · exact ⟨zero_le_one, le_rfl⟩
  · rw [not_le] at below above
    have floorPositive : 0 < floor := positive.trans above
    have part : 0 < Real.log (hi / floor) := Real.log_pos ((one_lt_div floorPositive).mpr below)
    have whole : Real.log (hi / floor) ≤ Real.log (hi / lo) :=
      Real.log_le_log (div_pos (floorPositive.trans below) floorPositive)
        (div_le_div_of_nonneg_left (floorPositive.trans below).le positive above.le)
    exact ⟨div_nonneg part.le (part.le.trans whole), div_le_one_of_le₀ whole (part.le.trans whole)⟩

/-- A bin is wholly active when its lower edge is not below the floor. -/
theorem activeWeight_lt_one_iff {lo hi : ℝ} (floor : ℝ) (positive : 0 < lo) (ascending : lo < hi) :
    activeWeight lo hi floor < 1 ↔ lo < floor := by
  simp only [activeWeight, ln_real]
  split_ifs with below above
  · exact ⟨fun _ => ascending.trans_le below, fun _ => zero_lt_one⟩
  · exact ⟨fun less => absurd less (lt_irrefl 1), fun less => absurd less (not_lt.mpr above)⟩
  · rw [not_le] at below above
    have floorPositive : 0 < floor := positive.trans above
    have whole : 0 < Real.log (hi / lo) := Real.log_pos ((one_lt_div positive).mpr ascending)
    refine ⟨fun _ => above, fun _ => (div_lt_one whole).mpr ?_⟩
    exact Real.log_lt_log (div_pos (floorPositive.trans below) floorPositive)
      (div_lt_div_of_pos_left (floorPositive.trans below) positive above)

theorem activeWeight_of_le {lo hi floor : ℝ} (ascending : lo < hi) (above : floor ≤ lo) :
    activeWeight lo hi floor = 1 := by
  simp only [activeWeight]
  rw [if_neg (not_le.mpr (above.trans_lt ascending)), if_pos above]

/-- A bin is active when its upper edge is above the floor. -/
theorem activeWeight_pos_iff {lo hi : ℝ} (floor : ℝ) (positive : 0 < lo) (ascending : lo < hi) :
    0 < activeWeight lo hi floor ↔ floor < hi := by
  simp only [activeWeight, ln_real]
  split_ifs with below above
  · exact ⟨fun less => absurd less (lt_irrefl 0), fun less => absurd less (not_lt.mpr below)⟩
  · exact ⟨fun _ => above.trans_lt ascending, fun _ => zero_lt_one⟩
  · rw [not_le] at below above
    refine ⟨fun _ => below, fun _ => div_pos (Real.log_pos ?_) (Real.log_pos ?_)⟩
    · exact (one_lt_div (positive.trans above)).mpr below
    · exact (one_lt_div positive).mpr ascending

/-- The active share of a bin falls as the floor rises. -/
theorem activeWeight_anti {lo hi f₁ f₂ : ℝ} (positive : 0 < lo) (ascending : lo < hi)
    (rises : f₁ ≤ f₂) : activeWeight lo hi f₂ ≤ activeWeight lo hi f₁ := by
  have share := activeWeight_mem hi f₁ positive
  have share' := activeWeight_mem hi f₂ positive
  rcases le_or_gt hi f₂ with below | reaches
  · rw [activeWeight, if_pos below]
    exact share.1
  · rcases le_or_gt f₁ lo with above | cut
    · rw [activeWeight_of_le ascending above]
      exact share'.2
    · have floorPositive : 0 < f₁ := positive.trans cut
      have width : 0 < Real.log (hi / lo) := Real.log_pos ((one_lt_div positive).mpr ascending)
      simp only [activeWeight, ln_real, if_neg (not_le.mpr reaches), if_neg (not_le.mpr cut),
        if_neg (not_le.mpr (cut.trans_le rises)), if_neg (not_le.mpr (rises.trans_lt reaches))]
      refine div_le_div_of_nonneg_right (Real.log_le_log ?_ ?_) width.le
      · exact div_pos (positive.trans ascending) (floorPositive.trans_le rises)
      · exact div_le_div_of_nonneg_left (positive.trans ascending).le floorPositive rises

/-- The power of a size over the exponent ascends with the size, whatever the sign of the
exponent. -/
theorem rpow_div_le_rpow_div {a b k : ℝ} (positive : 0 < a) (ascending : a ≤ b) :
    a ^ k / k ≤ b ^ k / k := by
  rcases lt_trichotomy k 0 with negative | rfl | positiveExponent
  · exact div_le_div_of_nonpos_of_le negative.le
      (Real.rpow_le_rpow_of_nonpos positive ascending negative.le)
  · simp
  · exact div_le_div_of_nonneg_right (Real.rpow_le_rpow positive.le ascending positiveExponent.le)
      positiveExponent.le

theorem powerLawIntegral_nonneg {a : ℝ} (b q : ℝ) (positive : 0 < a) :
    0 ≤ powerLawIntegral a b q := by
  simp only [powerLawIntegral, ln_real, pow_real, magnitude_real]
  split_ifs with empty flat
  · exact le_rfl
  · exact Real.log_nonneg ((one_le_div positive).mpr (not_le.mp empty).le)
  · rw [sub_div]
    exact sub_nonneg.mpr (rpow_div_le_rpow_div positive (not_le.mp empty).le)

/-! ## Grids -/

/-- Every bin has a positive width and lies below the next. -/
structure IsGrid (b : SizeBins ℝ) : Prop where
  shaped : b.IsShaped
  widths : ∀ span ∈ b.spans, 0 < span.1 ∧ span.1 < span.2
  ascends : b.spans.Pairwise fun s t => s.2 ≤ t.1

/-- No bin holds a negative mass. -/
def IsNonneg (b : SizeBins ℝ) : Prop := ∀ m ∈ b.masses, 0 ≤ m

theorem SameGrid.isGrid {b b' : SizeBins ℝ} (h : b.SameGrid b') (grid : b.IsGrid) :
    b'.IsGrid where
  shaped := h.isShaped grid.shaped
  widths := by rw [h.spans]; exact grid.widths
  ascends := by rw [h.spans]; exact grid.ascends

theorem IsGrid.activeWeight_mem {b : SizeBins ℝ} (grid : b.IsGrid) {span : ℝ × ℝ}
    (h : span ∈ b.spans) (floor : ℝ) : activeWeight span.1 span.2 floor ∈ Set.Icc (0 : ℝ) 1 :=
  SizeBins.activeWeight_mem span.2 floor (grid.widths span h).1

/-- The shares of a power law are not negative. -/
theorem IsGrid.powerLawWeights_nonneg {b : SizeBins ℝ} (grid : b.IsGrid) (floor q : ℝ) :
    ∀ w ∈ b.powerLawWeights floor q, 0 ≤ w := by
  have raw : ∀ span ∈ b.spans, 0 ≤ powerLawIntegral (max span.1 floor) span.2 q := by
    intro span h
    exact powerLawIntegral_nonneg _ _ (lt_max_of_lt_left (grid.widths span h).1)
  intro w hw
  simp only [powerLawWeights, fmax_real, sum_real, isFinite_real, and_true] at hw
  split_ifs at hw with some
  · simp only [List.map_map, List.mem_map, Function.comp_apply] at hw
    obtain ⟨span, h, rfl⟩ := hw
    exact div_nonneg (raw span h) some.le
  · simp only [List.map_map, List.mem_map, Function.comp_apply] at hw
    obtain ⟨_, _, rfl⟩ := hw
    exact le_rfl

end SizeBins

/-- The shares of the bins in a delivery are not negative. -/
theorem SupplySettings.shares_nonneg (s : SupplySettings ℝ) {b : SizeBins ℝ} (grid : b.IsGrid)
    (floor : ℝ) : ∀ w ∈ s.shares b floor, 0 ≤ w := by
  intro w hw
  simp only [shares, sum_real] at hw
  split_ifs at hw with some
  · obtain ⟨v, hv, rfl⟩ := List.mem_map.mp hw
    refine div_nonneg ?_ some.le
    obtain ⟨j, hj⟩ := List.mem_iff_getElem?.mp hv
    obtain ⟨clipped, active, hclipped, _, rfl⟩ := List.getElem?_zipWith_eq_some.mp hj
    split_ifs
    · exact le_rfl
    · exact grid.powerLawWeights_nonneg _ _ _ (List.mem_of_getElem? hclipped)
  · exact grid.powerLawWeights_nonneg _ _ _ hw

/-! ## The initial grains -/

namespace SizeBins

theorem logEdges_ascend {lo hi : ℝ} (positive : 0 < lo) (ascending : lo < hi) {n : ℕ}
    (some : n ≠ 0) : (logEdges lo hi n).Pairwise (· < ·) := by
  simp only [logEdges, exp_real, ln_real, ofNat_real]
  rw [List.pairwise_map]
  refine List.pairwise_lt_range.imp fun {i j} before => Real.exp_lt_exp.mpr ?_
  have width : 0 < Real.log hi - Real.log lo :=
    sub_pos.mpr (Real.log_lt_log positive ascending)
  have count : (0 : ℝ) < n := by exact_mod_cast Nat.pos_of_ne_zero some
  have apart : (i : ℝ) / n < j / n := by
    rw [div_lt_div_iff_of_pos_right count]
    exact_mod_cast before
  nlinarith

theorem logEdges_pos {lo hi : ℝ} {n : ℕ} : ∀ s ∈ logEdges lo hi n, 0 < s := by
  intro s hs
  obtain ⟨i, _, rfl⟩ := List.mem_map.mp hs
  exact Real.exp_pos _

/-- Logarithmic spacing gives a grid of empty bins. -/
theorem isGrid_logSpaced {low high : Length ℝ} {n : ℕ} {density : Density ℝ} {b : SizeBins ℝ}
    (h : logSpaced low high n density = .ok b) : b.IsGrid ∧ b.masses = List.replicate n 0 := by
  obtain ⟨⟨positive, ascending, _⟩, some, shaped, edges, empty⟩ := logSpaced_eq_ok h
  have ascend := logEdges_ascend positive ascending some
  rw [← edges] at ascend
  refine ⟨?_, empty⟩
  exact {
    shaped
    widths := fun span h => by
      have neighbours := lt_of_mem_zip_tail ascend span h
      rw [edges] at neighbours
      exact ⟨logEdges_pos _ neighbours.1, neighbours.2⟩
    ascends := pairwise_zip_tail ascend }

/-- A power law of a positive mass leaves no bin with a negative one. -/
theorem isNonneg_withPowerLaw {b b' : SizeBins ℝ} (grid : b.IsGrid) {total : Mass ℝ} {q : ℝ}
    {lower : Length ℝ} (positive : 0 ≤ total.kilograms)
    (h : b.withPowerLaw total q lower = .ok b') : b'.IsNonneg := by
  rw [withPowerLaw_eq_ok h]
  intro m hm
  obtain ⟨j, hj⟩ := List.mem_iff_getElem?.mp hm
  obtain ⟨_, w, _, hw, rfl⟩ := List.getElem?_zipWith_eq_some.mp hj
  exact mul_nonneg positive (grid.powerLawWeights_nonneg _ _ _ (List.mem_of_getElem? hw))

end SizeBins

/-- The initial grains are a grid with no negative mass. -/
theorem RunConfig.initialBins_exact {c : RunConfig ℝ} (valid : c.IsValid) {bins : SizeBins ℝ}
    (h : c.initialBins = .ok bins) : bins.IsGrid ∧ bins.IsNonneg := by
  obtain ⟨empty, spaced, filled⟩ := initialBins_eq_ok h
  have grid := (SizeBins.isGrid_logSpaced spaced).1
  have positive : 0 ≤ (Mass.ofMarsMasses c.initial.marsMasses).kilograms :=
    mul_nonneg valid.mass.1.le (by unfold marsMass; norm_num)
  exact ⟨(SizeBins.sameGrid_withPowerLaw grid.shaped filled).isGrid grid,
    SizeBins.isNonneg_withPowerLaw grid positive filled⟩

end DebrisDisk
