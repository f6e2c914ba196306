import DebrisDisk.Proofs.Exact.Bins
import DebrisDisk.Proofs.Exact.PowerLaw

/-!
# Rising floors

A floor leaves nothing of the bins below it and all of the bins above it, and cuts one bin at most.
As it rises the active mass falls. So does the opacity of what is active, which is a mean over the
bins, weighted by their active mass: the bins that lose mass to the floor are no larger than those
that keep some, and the opacity falls with the size, so every bin that loses mass is at least as
opaque as the mean of what is left.

## Main definitions

* `SizeBins.IsCentred`: the grains of a bin have the geometric mean of its edges for a size.
* `SizeBins.IsCutAt`: what a floor leaves of the bins.

## Main results

* `SizeBins.IsGrid.mass_activeSummary_anti`: the active mass falls as the floor rises.
* `SizeBins.IsGrid.kappa_anti`: so does the opacity.
* `SizeBins.rising_floor`: active shares, active mass and opacity above any two floors.
-/

namespace DebrisDisk
open Scalar

namespace SizeBins
variable {b : SizeBins ℝ}

theorem IsNonneg.massAt (nonneg : b.IsNonneg) {i : ℕ} (inside : i < b.size) : 0 ≤ b.massAt i :=
  nonneg _ (List.mem_of_getElem? (IsGrid.getElem?_masses inside))

/-! ## The sizes of the bins -/

/-- The grains have a density, and those of a bin the geometric mean of its edges for a size. -/
structure IsCentred (b : SizeBins ℝ) : Prop where
  dense : 0 < b.density
  centre : ∀ i < b.size, b.centreAt i = Real.sqrt (b.edgeAt i * b.edgeAt (i + 1))

theorem SameGrid.isCentred {b' : SizeBins ℝ} (same : b.SameGrid b') (centred : b.IsCentred) :
    b'.IsCentred where
  dense := same.density ▸ centred.dense
  centre i inside := by
    rw [SizeBins.size, same.size] at inside
    simpa only [centreAt, edgeAt, same.centres, same.edges] using centred.centre i inside

/-- Logarithmic grids are centred. -/
theorem isCentred_logSpaced {low high : Length ℝ} {n : ℕ} {density : Density ℝ}
    (spaced : logSpaced low high n density = .ok b) : b.IsCentred := by
  have grid := (isGrid_logSpaced spaced).1
  simp only [logSpaced, bind_eq_ok_iff, require_eq_ok_iff, exists_const, pure, Except.pure,
    Except.ok.injEq] at spaced
  obtain ⟨_, _, ⟨dense, _⟩, rfl⟩ := spaced
  refine ⟨dense, fun i inside => ?_⟩
  obtain ⟨x, y, lower, upper, mean⟩ :=
    List.getElem?_zipWith_eq_some.mp (grid.getElem?_centres inside)
  have span := grid.getElem?_spans inside
  rw [spans, List.getElem?_zip_eq_some] at span
  rw [Option.some.inj (lower.symm.trans span.1), Option.some.inj (upper.symm.trans span.2)] at mean
  exact mean.symm

namespace IsGrid
variable (grid : b.IsGrid) {i j : ℕ}
include grid

section Centres
variable (centred : b.IsCentred)
include centred

/-- The size of a bin lies between its edges. -/
theorem centreAt_mem (inside : i < b.size) :
    b.centreAt i ∈ Set.Ioo (b.edgeAt i) (b.edgeAt (i + 1)) := by
  obtain ⟨positive, ascending⟩ := grid.edgeAt_width inside
  rw [centred.centre i inside]
  constructor
  · refine Real.lt_sqrt_of_sq_lt ?_
    rw [sq]
    exact mul_lt_mul_of_pos_left ascending positive
  · rw [Real.sqrt_lt' (positive.trans ascending), sq]
    exact mul_lt_mul_of_pos_right ascending (positive.trans ascending)

theorem centreAt_pos (inside : i < b.size) : 0 < b.centreAt i :=
  (grid.edgeAt_width inside).1.trans (grid.centreAt_mem centred inside).1

theorem pos_of_mem_centres {s : ℝ} (member : s ∈ b.centres) : 0 < s := by
  obtain ⟨i, held⟩ := List.mem_iff_getElem?.mp member
  have inside : i < b.size :=
    lt_of_lt_of_eq (List.getElem?_eq_some_iff.mp held).1 grid.shaped.centres
  rw [← Option.some.inj ((grid.getElem?_centres inside).symm.trans held)]
  exact grid.centreAt_pos centred inside

theorem centreAt_mono (ordered : i ≤ j) (inside : j < b.size) : b.centreAt i ≤ b.centreAt j := by
  rcases ordered.eq_or_lt with rfl | before
  · exact le_rfl
  · calc
      b.centreAt i ≤ b.edgeAt (i + 1) := (grid.centreAt_mem centred (before.trans inside)).2.le
      _ ≤ b.edgeAt j := grid.edgeAt_mono before inside.le
      _ ≤ b.centreAt j := (grid.centreAt_mem centred inside).1.le

/-- A bin that does not lie above another is no less opaque. -/
theorem opacity_anti (ordered : i ≤ j) (inside : j < b.size) :
    b.opacity (b.centreAt j) ≤ b.opacity (b.centreAt i) := by
  have positive := grid.centreAt_pos centred (ordered.trans_lt inside)
  have dense := centred.dense
  exact div_le_div_of_nonneg_left (by norm_num) (by positivity)
    (mul_le_mul_of_nonneg_left (grid.centreAt_mono centred ordered inside) (by positivity))

end Centres

/-! ## Active shares -/

theorem weightAt_mem (floor : ℝ) (inside : i < b.size) :
    b.weightAt floor i ∈ Set.Icc (0 : ℝ) 1 := by
  rw [grid.weightAt_eq floor inside]
  exact SizeBins.activeWeight_mem _ floor (grid.edgeAt_width inside).1

theorem weightAt_pos_iff (floor : ℝ) (inside : i < b.size) :
    0 < b.weightAt floor i ↔ floor < b.edgeAt (i + 1) := by
  obtain ⟨positive, ascending⟩ := grid.edgeAt_width inside
  rw [grid.weightAt_eq floor inside, activeWeight_pos_iff floor positive ascending]

theorem weightAt_lt_one_iff (floor : ℝ) (inside : i < b.size) :
    b.weightAt floor i < 1 ↔ b.edgeAt i < floor := by
  obtain ⟨positive, ascending⟩ := grid.edgeAt_width inside
  rw [grid.weightAt_eq floor inside, activeWeight_lt_one_iff floor positive ascending]

theorem weightAt_anti {f₁ f₂ : ℝ} (rises : f₁ ≤ f₂) (inside : i < b.size) :
    b.weightAt f₂ i ≤ b.weightAt f₁ i := by
  obtain ⟨positive, ascending⟩ := grid.edgeAt_width inside
  rw [grid.weightAt_eq f₁ inside, grid.weightAt_eq f₂ inside]
  exact activeWeight_anti positive ascending rises

/-- A bin that is not wholly active lies above no bin that has an active share. -/
theorem le_of_cut {floor : ℝ} (inside : i < b.size) (inside' : j < b.size)
    (cut : b.weightAt floor i < 1) (active : 0 < b.weightAt floor j) : i ≤ j := by
  by_contra above
  have lower := (grid.weightAt_lt_one_iff floor inside).mp cut
  have reaches := (grid.weightAt_pos_iff floor inside').mp active
  have between := grid.edgeAt_mono (Nat.succ_le_of_lt (not_le.mp above)) inside.le
  exact (reaches.trans_le between).not_gt lower

/-- Active shares grow with the size. -/
theorem weightAt_mono (floor : ℝ) (ordered : i ≤ j) (inside : j < b.size) :
    b.weightAt floor i ≤ b.weightAt floor j := by
  have inside' := ordered.trans_lt inside
  have share := grid.weightAt_mem floor inside
  have share' := grid.weightAt_mem floor inside'
  rcases share'.1.eq_or_lt with none | active
  · rw [← none]
    exact share.1
  · rcases share.2.eq_or_lt with whole | cut
    · rw [whole]
      exact share'.2
    · rw [ordered.antisymm (grid.le_of_cut inside inside' cut active)]

/-! ## Active mass -/

section Mass
variable (nonneg : b.IsNonneg)
include nonneg

theorem mass_activeSummary_anti {f₁ f₂ : ℝ} (rises : f₁ ≤ f₂) :
    (b.activeSummary f₂).mass ≤ (b.activeSummary f₁).mass := by
  rw [grid.mass_activeSummary, grid.mass_activeSummary]
  refine Finset.sum_le_sum fun i hi => ?_
  have inside := Finset.mem_range.mp hi
  exact mul_le_mul_of_nonneg_left (grid.weightAt_anti rises inside) (nonneg.massAt inside)

/-- The grains above a floor weigh no more than all grains. -/
theorem mass_activeSummary_le (floor : ℝ) :
    (b.activeSummary floor).mass ≤ b.totalMass.kilograms := by
  rw [grid.mass_activeSummary, totalMass_eq_sum]
  refine Finset.sum_le_sum fun i hi => ?_
  have inside := Finset.mem_range.mp hi
  exact mul_le_of_le_one_right (nonneg.massAt inside) (grid.weightAt_mem floor inside).2

/-- Grains in a bin that reaches above the floor are active. -/
theorem mass_activeSummary_pos {floor : ℝ} (inside : i < b.size) (held : 0 < b.massAt i)
    (reaches : floor < b.edgeAt (i + 1)) : 0 < (b.activeSummary floor).mass := by
  rw [grid.mass_activeSummary]
  refine Finset.sum_pos' (fun j hj => ?_) ⟨i, Finset.mem_range.mpr inside, ?_⟩
  · have inside' := Finset.mem_range.mp hj
    exact mul_nonneg (nonneg.massAt inside') (grid.weightAt_mem floor inside').1
  · exact mul_pos held ((grid.weightAt_pos_iff floor inside).mpr reaches)

/-! ## Opacity -/

/-- Only bins with an active share count in a sum over the active mass. -/
theorem sum_active_le {floor : ℝ} {f g : ℕ → ℝ}
    (less : ∀ i < b.size, 0 < b.weightAt floor i → f i ≤ g i) :
    ∑ i ∈ Finset.range b.size, b.massAt i * b.weightAt floor i * f i ≤
      ∑ i ∈ Finset.range b.size, b.massAt i * b.weightAt floor i * g i := by
  refine Finset.sum_le_sum fun i hi => ?_
  have inside := Finset.mem_range.mp hi
  have mass := nonneg.massAt inside
  rcases (grid.weightAt_mem floor inside).1.eq_or_lt with none | some
  · rw [← none, mul_zero, zero_mul, zero_mul]
  · exact mul_le_mul_of_nonneg_left (less i inside some) (mul_nonneg mass some.le)

variable {floor : ℝ} (active : 0 < (b.activeSummary floor).mass) {bound : ℝ}
include active

/-- The opacity is at most that of the most opaque bin with an active share. -/
theorem kappa_le (most : ∀ i < b.size, 0 < b.weightAt floor i →
    b.opacity (b.centreAt i) ≤ bound) : (b.activeSummary floor).kappa ≤ bound := by
  refine le_of_mul_le_mul_right ?_ active
  rw [grid.kappa_mul_mass floor active, mul_comm, grid.mass_activeSummary, Finset.sum_mul]
  exact grid.sum_active_le nonneg most

/-- The opacity is at least that of the least opaque bin with an active share. -/
theorem le_kappa (least : ∀ i < b.size, 0 < b.weightAt floor i →
    bound ≤ b.opacity (b.centreAt i)) : bound ≤ (b.activeSummary floor).kappa := by
  refine le_of_mul_le_mul_right ?_ active
  rw [grid.kappa_mul_mass floor active, mul_comm, grid.mass_activeSummary, Finset.sum_mul]
  exact grid.sum_active_le nonneg least

/-- What a rising floor takes from a bin is at least as opaque as the mean of what it leaves. -/
theorem kappa_le_of_cut (centred : b.IsCentred) (inside : i < b.size)
    (cut : b.weightAt floor i < 1) :
    (b.activeSummary floor).kappa ≤ b.opacity (b.centreAt i) :=
  grid.kappa_le nonneg active fun _ inside' some =>
    grid.opacity_anti centred (grid.le_of_cut inside inside' cut some) inside'

end Mass

/-- The opacity of the active grains falls as the floor rises, while some are left. -/
theorem kappa_anti (nonneg : b.IsNonneg) (centred : b.IsCentred) {f₁ f₂ : ℝ} (rises : f₁ ≤ f₂)
    (active : 0 < (b.activeSummary f₂).mass) :
    (b.activeSummary f₂).kappa ≤ (b.activeSummary f₁).kappa := by
  have active' := active.trans_le (grid.mass_activeSummary_anti nonneg rises)
  set mean := (b.activeSummary f₂).kappa with hmean
  have left := grid.kappa_mul_mass f₂ active
  rw [← hmean, grid.mass_activeSummary, Finset.mul_sum] at left
  refine le_of_mul_le_mul_right ?_ active'
  rw [grid.kappa_mul_mass f₁ active', grid.mass_activeSummary, Finset.mul_sum]
  -- Every bin loses at least the mean opacity with its mass.
  have lost : ∀ i ∈ Finset.range b.size,
      mean * (b.massAt i * b.weightAt f₁ i) - mean * (b.massAt i * b.weightAt f₂ i) ≤
        b.massAt i * b.weightAt f₁ i * b.opacity (b.centreAt i) -
          b.massAt i * b.weightAt f₂ i * b.opacity (b.centreAt i) := by
    intro i hi
    have inside := Finset.mem_range.mp hi
    have mass := nonneg.massAt inside
    rw [← mul_sub, ← sub_mul, mul_comm mean, ← mul_sub]
    rcases (grid.weightAt_anti rises inside).eq_or_lt with same | less
    · rw [same, sub_self, mul_zero, zero_mul, zero_mul]
    · have cut : b.weightAt f₂ i < 1 := less.trans_le (grid.weightAt_mem f₁ inside).2
      exact mul_le_mul_of_nonneg_left (grid.kappa_le_of_cut nonneg active centred inside cut)
        (mul_nonneg mass (sub_nonneg.mpr less.le))
  have total := Finset.sum_le_sum lost
  rw [Finset.sum_sub_distrib, Finset.sum_sub_distrib, left] at total
  linarith

end IsGrid

/-! ## What a floor leaves -/

/-- What a floor leaves of the bins: a share of each, which grows with the size from none to all and
is a part of one bin at most, and a mass of grains that are no more opaque than the smallest and no
less than the largest. -/
structure IsCutAt (b : SizeBins ℝ) (floor : ℝ) : Prop where
  share : ∀ i < b.size, b.weightAt floor i ∈ Set.Icc (0 : ℝ) 1
  reaches : ∀ i < b.size, (0 < b.weightAt floor i ↔ floor < b.edgeAt (i + 1))
  cut : ∀ i < b.size, (b.weightAt floor i < 1 ↔ b.edgeAt i < floor)
  ascends : ∀ i j, i ≤ j → j < b.size → b.weightAt floor i ≤ b.weightAt floor j
  single : ∀ i < b.size, ∀ j < b.size, b.weightAt floor i ∈ Set.Ioo (0 : ℝ) 1 →
    b.weightAt floor j ∈ Set.Ioo (0 : ℝ) 1 → i = j
  mass : (b.activeSummary floor).mass ≤ b.totalMass.kilograms
  kappa : 0 < (b.activeSummary floor).mass → (b.activeSummary floor).kappa ∈
    Set.Icc (b.opacity (b.centreAt (b.size - 1))) (b.opacity (b.centreAt 0))

theorem IsGrid.isCutAt (grid : b.IsGrid) (nonneg : b.IsNonneg) (centred : b.IsCentred)
    (floor : ℝ) : b.IsCutAt floor where
  share _ inside := grid.weightAt_mem floor inside
  reaches _ inside := grid.weightAt_pos_iff floor inside
  cut _ inside := grid.weightAt_lt_one_iff floor inside
  ascends _ _ ordered inside := grid.weightAt_mono floor ordered inside
  single i inside j inside' part part' :=
    (grid.le_of_cut inside inside' part.2 part'.1).antisymm
      (grid.le_of_cut inside' inside part'.2 part.1)
  mass := grid.mass_activeSummary_le nonneg floor
  kappa active :=
    ⟨grid.le_kappa nonneg active fun _ inside _ =>
        grid.opacity_anti centred (Nat.le_sub_one_of_lt inside) (by omega),
      grid.kappa_le nonneg active fun i inside _ =>
        grid.opacity_anti centred (Nat.zero_le i) inside⟩

/-- **A rising floor leaves less active mass, and grains that are less opaque.** Whatever the grains
of a logarithmic grid weigh, a floor cuts one bin at most and leaves all larger ones. A higher floor
leaves no bin a greater share, so no more mass, and as long as it leaves some, no greater
opacity. -/
theorem rising_floor {low high : Length ℝ} {n : ℕ} {density : Density ℝ} {empty b : SizeBins ℝ}
    (spaced : logSpaced low high n density = .ok empty) (same : empty.SameGrid b)
    (nonneg : b.IsNonneg) :
    (∀ floor, b.IsCutAt floor) ∧
      ∀ f₁ f₂, f₁ ≤ f₂ →
        (∀ i < b.size, b.weightAt f₂ i ≤ b.weightAt f₁ i) ∧
        (b.activeSummary f₂).mass ≤ (b.activeSummary f₁).mass ∧
        (0 < (b.activeSummary f₂).mass →
          (b.activeSummary f₂).kappa ≤ (b.activeSummary f₁).kappa) := by
  have grid := same.isGrid (isGrid_logSpaced spaced).1
  have centred := same.isCentred (isCentred_logSpaced spaced)
  refine ⟨grid.isCutAt nonneg centred, fun f₁ f₂ rises => ⟨fun i inside => ?_, ?_, ?_⟩⟩
  · exact grid.weightAt_anti rises inside
  · exact grid.mass_activeSummary_anti nonneg rises
  · exact grid.kappa_anti nonneg centred rises

/-- A kilogram in each of forty bins up to three metres: a floor of a metre leaves some of it, and
no more than one at the bottom of the grid, with no greater opacity. -/
theorem exists_rising_floor : ∃ b : SizeBins ℝ, b.masses = List.replicate 40 1 ∧ b.IsCutAt 1 ∧
    0 < (b.activeSummary 1).mass ∧ (b.activeSummary 1).mass ≤ (b.activeSummary 1e-7).mass ∧
    (b.activeSummary 1).kappa ≤ (b.activeSummary 1e-7).kappa := by
  obtain ⟨empty, spaced⟩ : ∃ b : SizeBins ℝ, logSpaced ⟨1e-7⟩ ⟨3⟩ 40 ⟨3000⟩ = .ok b :=
    exists_logSpaced (by norm_num) (by norm_num) (by norm_num) (by norm_num)
  obtain ⟨grid, counted⟩ := isGrid_logSpaced spaced
  set b : SizeBins ℝ := { empty with masses := List.replicate 40 1 } with hb
  have same : empty.SameGrid b := ⟨rfl, rfl, rfl, by simp [hb, counted]⟩
  have nonneg : b.IsNonneg := fun m member => by
    rw [List.eq_of_mem_replicate member]
    exact zero_le_one
  replace grid := same.isGrid grid
  have inside : 39 < b.size := by simp [hb, size]
  have held : 0 < b.massAt 39 := by simp [hb, massAt]
  have top : b.edgeAt 40 = 3 := by
    have last := (grid.top_iff (grid.getElem?_spans inside)).mpr (by simp [hb, size])
    exact last.trans (congrArg Quantity.base (ends_of_logSpaced spaced).2)
  have reaches : (1 : ℝ) < b.edgeAt 40 := by
    rw [top]
    norm_num
  have active := grid.mass_activeSummary_pos nonneg inside held reaches
  have rises : (1e-7 : ℝ) ≤ 1 := by norm_num
  obtain ⟨cut, lowers⟩ := rising_floor spaced same nonneg
  obtain ⟨_, mass, kappa⟩ := lowers 1e-7 1 rises
  exact ⟨b, rfl, cut 1, active, mass, kappa active⟩

end SizeBins
end DebrisDisk
