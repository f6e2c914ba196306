import DebrisDisk.Proofs.Exact.Opacity
import DebrisDisk.Proofs.IndexLoops

/-!
# Logarithmic spacing in exact arithmetic

The edges of a logarithmic grid are a geometric sequence from the smallest to the greatest size. The
ratio of neighbours is a root of the whole ratio, of as high a degree as there are bins. Every bin
contains its centre, so a floor at the centre cuts the bin, and as the centre is the geometric mean
of the edges the floor leaves half of it.

## Main definitions

* `SizeBins.IsGeometric`: the edges, the centres and the active shares of a logarithmic grid.

## Main results

* `SizeBins.edgeAt_logEdges`: the edges in closed form.
* `SizeBins.IsGrid.weightAt_centreAt`: a floor at a centre halves its bin.
* `SizeBins.geometric_of_logSpaced`: the grid of any sizes that are accepted.
-/

namespace DebrisDisk
open Scalar

namespace SizeBins
variable {b : SizeBins ℝ}

/-! ## The edges -/

section Edges
variable {lo hi : ℝ} (positive : 0 < lo) (ascending : lo < hi) {n i : ℕ}
include positive ascending

/-- The edges of a logarithmic grid are a geometric sequence. -/
theorem edgeAt_logEdges (edges : b.edges = logEdges lo hi n) (inside : i ≤ n) :
    b.edgeAt i = lo * (hi / lo) ^ (i / n : ℝ) := by
  have greatest : 0 < hi := positive.trans ascending
  have width : Real.log (hi / lo) = Real.log hi - Real.log lo :=
    Real.log_div greatest.ne' positive.ne'
  have here : b.edgeAt i = Real.exp (Real.log lo + i / n * (Real.log hi - Real.log lo)) := by
    simp [edgeAt, edges, logEdges, List.getElem?_range (Nat.lt_succ_of_le inside)]
  rw [here, Real.exp_add, Real.exp_log positive, ← width, mul_comm (i / n : ℝ),
    Real.rpow_def_of_pos (div_pos greatest positive)]

/-- The ratio of neighbouring edges is the same all over the grid. -/
theorem edgeAt_succ_div (edges : b.edges = logEdges lo hi n) (inside : i < n) :
    b.edgeAt (i + 1) / b.edgeAt i = (hi / lo) ^ (1 / n : ℝ) := by
  have ratio : 0 < hi / lo := div_pos (positive.trans ascending) positive
  rw [edgeAt_logEdges positive ascending edges inside,
    edgeAt_logEdges positive ascending edges inside.le,
    mul_div_mul_left _ _ positive.ne', ← Real.rpow_sub ratio]
  congr 1
  push_cast
  ring

theorem ends_of_logEdges (edges : b.edges = logEdges lo hi n) (some : n ≠ 0) :
    b.edgeAt 0 = lo ∧ b.edgeAt n = hi := by
  have count : (n : ℝ) ≠ 0 := by exact_mod_cast some
  constructor
  · rw [edgeAt_logEdges positive ascending edges n.zero_le]
    simp
  · rw [edgeAt_logEdges positive ascending edges le_rfl, div_self count, Real.rpow_one,
      mul_div_cancel₀ _ positive.ne']

end Edges

/-! ## Floors that cut a bin -/

namespace IsGrid
variable (grid : b.IsGrid) {i : ℕ} (inside : i < b.size)
include grid inside

theorem log_width_pos : 0 < Real.log (b.edgeAt (i + 1) / b.edgeAt i) := by
  obtain ⟨positive, ascending⟩ := grid.edgeAt_width inside
  exact Real.log_pos ((one_lt_div positive).mpr ascending)

theorem weightAt_of_cut {floor : ℝ} (above : b.edgeAt i < floor)
    (below : floor < b.edgeAt (i + 1)) : b.weightAt floor i =
      Real.log (b.edgeAt (i + 1) / floor) / Real.log (b.edgeAt (i + 1) / b.edgeAt i) := by
  rw [grid.weightAt_eq floor inside, activeWeight, if_neg (not_le.mpr below),
    if_neg (not_le.mpr above), ln_real, ln_real]

/-- A bin is empty, whole or cut. -/
theorem weightAt_cases (floor : ℝ) :
    b.edgeAt (i + 1) ≤ floor ∧ b.weightAt floor i = 0 ∨
    floor ≤ b.edgeAt i ∧ b.weightAt floor i = 1 ∨
    0 < floor ∧ b.weightAt floor i =
      Real.log (b.edgeAt (i + 1) / floor) / Real.log (b.edgeAt (i + 1) / b.edgeAt i) := by
  obtain ⟨positive, ascending⟩ := grid.edgeAt_width inside
  rcases le_or_gt (b.edgeAt (i + 1)) floor with under | reaches
  · refine .inl ⟨under, ?_⟩
    rw [grid.weightAt_eq floor inside, activeWeight, if_pos under]
  · rcases le_or_gt floor (b.edgeAt i) with above | cut
    · refine .inr (.inl ⟨above, ?_⟩)
      rw [grid.weightAt_eq floor inside, activeWeight_of_le ascending above]
    · exact .inr (.inr ⟨positive.trans cut, grid.weightAt_of_cut inside cut reaches⟩)

/-- A floor at the centre of a bin leaves half of it. -/
theorem weightAt_centreAt (centred : b.IsCentred) : b.weightAt (b.centreAt i) i = 1 / 2 := by
  obtain ⟨positive, ascending⟩ := grid.edgeAt_width inside
  obtain ⟨above, below⟩ := grid.centreAt_mem centred inside
  have upper : 0 < b.edgeAt (i + 1) := positive.trans ascending
  have middle : Real.log (b.centreAt i) =
      (Real.log (b.edgeAt i) + Real.log (b.edgeAt (i + 1))) / 2 := by
    rw [centred.centre i inside, Real.log_sqrt (mul_pos positive upper).le,
      Real.log_mul positive.ne' upper.ne']
  have half : Real.log (b.edgeAt (i + 1) / b.centreAt i) =
      1 / 2 * Real.log (b.edgeAt (i + 1) / b.edgeAt i) := by
    rw [Real.log_div upper.ne' (positive.trans above).ne', middle,
      Real.log_div upper.ne' positive.ne']
    ring
  rw [grid.weightAt_of_cut inside above below, half,
    mul_div_cancel_right₀ _ (grid.log_width_pos inside).ne']

end IsGrid

/-! ## Accepted grids -/

/-- A grid of `n` bins from `lo` to `hi` in equal ratios, and the shares that floors leave of it. -/
structure IsGeometric (b : SizeBins ℝ) (lo hi : ℝ) (n : ℕ) : Prop where
  edges : b.edges.length = n + 1
  centres : b.centres.length = n
  masses : b.masses.length = n
  ascends : b.edges.Pairwise (· < ·)
  ratio : ∀ i < n, b.edgeAt (i + 1) / b.edgeAt i = (hi / lo) ^ (1 / n : ℝ)
  bottom : b.edgeAt 0 = lo
  top : b.edgeAt n = hi
  centre : ∀ i < n, b.centreAt i ∈ Set.Ioo (b.edgeAt i) (b.edgeAt (i + 1)) ∧
    b.centreAt i = Real.sqrt (b.edgeAt i * b.edgeAt (i + 1))
  half : ∀ i < n, b.weightAt (b.centreAt i) i = 1 / 2
  /-- Where a floor cuts a bin, its share is a ratio of logarithms with positive denominators. -/
  quotient : ∀ i < n, ∀ floor,
    0 < b.edgeAt i ∧ 0 < Real.log (b.edgeAt (i + 1) / b.edgeAt i) ∧
    (b.edgeAt (i + 1) ≤ floor ∧ b.weightAt floor i = 0 ∨
      floor ≤ b.edgeAt i ∧ b.weightAt floor i = 1 ∨
      0 < floor ∧ b.weightAt floor i =
        Real.log (b.edgeAt (i + 1) / floor) / Real.log (b.edgeAt (i + 1) / b.edgeAt i))

/-- **Accepted sizes give a grid from the smallest to the greatest in equal ratios, and every loop
over its bins stays in range.** -/
theorem geometric_of_logSpaced {low high : Length ℝ} {n : ℕ} {density : Density ℝ}
    {empty b : SizeBins ℝ} (spaced : logSpaced low high n density = .ok empty)
    (same : empty.SameGrid b) : b.IsGeometric low.metres high.metres n ∧ b.StaysInRange := by
  obtain ⟨⟨positive, ascending, _⟩, some, _, edges, counted⟩ := logSpaced_eq_ok spaced
  rw [← same.edges] at edges
  have grid := same.isGrid (isGrid_logSpaced spaced).1
  have centred := same.isCentred (isCentred_logSpaced spaced)
  have size : b.size = n := by rw [SizeBins.size, same.size, counted, List.length_replicate]
  obtain ⟨bottom, top⟩ := ends_of_logEdges positive ascending edges some
  refine ⟨?_, grid.shaped.staysInRange⟩
  exact {
    edges := by simp [edges, logEdges]
    centres := grid.shaped.centres.trans size
    masses := size
    ascends := grid.edges_ascend
    ratio := fun i inside => edgeAt_succ_div positive ascending edges inside
    bottom
    top
    centre := fun i inside =>
      ⟨grid.centreAt_mem centred (size ▸ inside), centred.centre i (size ▸ inside)⟩
    half := fun i inside => grid.weightAt_centreAt (size ▸ inside) centred
    quotient := fun i inside floor =>
      ⟨(grid.edgeAt_width (size ▸ inside)).1, grid.log_width_pos (size ▸ inside),
        grid.weightAt_cases (size ▸ inside) floor⟩ }

/-- A kilogram in a single bin from a micron to a metre: a floor of a millimetre halves it. -/
theorem geometric_of_logSpaced_single : ∃ empty b : SizeBins ℝ,
    logSpaced ⟨1e-6⟩ ⟨1⟩ 1 ⟨3000⟩ = .ok empty ∧ empty.SameGrid b ∧ b.masses = [1] ∧
      b.IsGeometric 1e-6 1 1 ∧ b.StaysInRange ∧ b.centreAt 0 = 1e-3 ∧
      b.weightAt 1e-3 0 = 1 / 2 := by
  obtain ⟨empty, spaced⟩ : ∃ b : SizeBins ℝ, logSpaced ⟨1e-6⟩ ⟨1⟩ 1 ⟨3000⟩ = .ok b :=
    exists_logSpaced (by norm_num) (by norm_num) one_ne_zero (by norm_num)
  have same : empty.SameGrid { empty with masses := [1] } :=
    ⟨rfl, rfl, rfl, by simp [(isGrid_logSpaced spaced).2]⟩
  obtain ⟨geometric, stays⟩ := geometric_of_logSpaced spaced same
  have centre : ({ empty with masses := [1] } : SizeBins ℝ).centreAt 0 = 1e-3 := by
    rw [(geometric.centre 0 one_pos).2, geometric.bottom, geometric.top, mul_one,
      Real.sqrt_eq_iff_mul_self_eq_of_pos (by norm_num)]
    norm_num
  exact ⟨empty, _, spaced, same, rfl, geometric, stays, centre,
    centre ▸ geometric.half 0 one_pos⟩

end SizeBins
end DebrisDisk
