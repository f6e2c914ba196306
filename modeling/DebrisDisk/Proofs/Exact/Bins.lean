import DebrisDisk.Proofs.Exact.Grid

/-!
# The bins of a grid by index

The bins of a grid are numbered from the smallest grains up. Each lies between the edge of its own
index and the next one, and sums over the grid become sums over the indices.

## Main definitions

* `SizeBins.edgeAt`, `SizeBins.massAt`, `SizeBins.centreAt`, `SizeBins.weightAt`.

## Main results

* `SizeBins.IsGrid.mass_activeSummary`, `SizeBins.IsGrid.kappa_mul_mass`: the active mass and its
  cross-section as sums over the bins.
-/

namespace DebrisDisk
open Scalar

/-! ## Sums along a list -/

section Sums
variable {β : Type} {l : List β} {f : β → ℝ} {g : ℕ → ℝ}

theorem sum_map_eq_sum_range (entry : ∀ (i : ℕ) x, l[i]? = some x → f x = g i) :
    (l.map f).sum = ∑ i ∈ Finset.range l.length, g i := by
  induction l generalizing g with
  | nil => simp
  | cons x rest ih =>
    have first : f x = g 0 := entry 0 x rfl
    have later := ih (g := fun i => g (i + 1)) fun i y hy => entry (i + 1) y hy
    rw [List.map_cons, List.sum_cons, first, later, List.length_cons, Finset.sum_range_succ',
      add_comm]

theorem sum_eq_sum_range {xs : List ℝ} (entry : ∀ (i : ℕ) x, xs[i]? = some x → x = g i) :
    xs.sum = ∑ i ∈ Finset.range xs.length, g i := by
  simpa using sum_map_eq_sum_range (f := fun x => x) entry

theorem sum_map_drop_eq_sum_Ico {j : ℕ}
    (entry : ∀ (i : ℕ) x, j ≤ i → l[i]? = some x → f x = g i) :
    ((l.drop j).map f).sum = ∑ i ∈ Finset.Ico j l.length, g i := by
  rw [Finset.sum_Ico_eq_sum_range, ← List.length_drop]
  refine sum_map_eq_sum_range fun i x hx => entry (j + i) x (Nat.le_add_right j i) ?_
  rwa [List.getElem?_drop] at hx

theorem sum_map_take_eq_sum_range {i : ℕ} (short : i ≤ l.length)
    (entry : ∀ (j : ℕ) x, j < i → l[j]? = some x → f x = g j) :
    ((l.take i).map f).sum = ∑ j ∈ Finset.range i, g j := by
  have counted : (l.take i).length = i := List.length_take_of_le short
  rw [sum_map_eq_sum_range (g := g), counted]
  intro j x hx
  rw [List.getElem?_take, Option.ite_none_right_eq_some] at hx
  exact entry j x hx.1 hx.2

end Sums

/-! ## Bins by index -/

namespace SizeBins
variable {b : SizeBins ℝ}

/-- The edge of the given index in metres. -/
noncomputable def edgeAt (b : SizeBins ℝ) (i : ℕ) : ℝ := b.edges.getD i 0

/-- The mass of the bin of the given index in kilograms. -/
noncomputable def massAt (b : SizeBins ℝ) (i : ℕ) : ℝ := b.masses.getD i 0

/-- The size in metres that stands for the bin of the given index. -/
noncomputable def centreAt (b : SizeBins ℝ) (i : ℕ) : ℝ := b.centres.getD i 0

/-- The active share of the bin of the given index. -/
noncomputable def weightAt (b : SizeBins ℝ) (floor : ℝ) (i : ℕ) : ℝ :=
  (b.activeWeights floor).getD i 0

theorem massAt_of_getElem? {i : ℕ} {m : ℝ} (held : b.masses[i]? = some m) : b.massAt i = m := by
  simp [massAt, held]

namespace IsGrid
variable (grid : b.IsGrid) {i j : ℕ}
include grid

omit grid in
theorem getElem?_masses (inside : i < b.size) : b.masses[i]? = some (b.massAt i) := by
  simp [massAt, List.getElem?_eq_getElem inside]

theorem getElem?_spans (inside : i < b.size) :
    b.spans[i]? = some (b.edgeAt i, b.edgeAt (i + 1)) := by
  have counted : b.spans.length = b.size := grid.shaped.spans
  have room : i + 1 < b.edges.length := by
    simp only [spans, List.length_zip, List.length_tail] at counted
    omega
  rw [List.getElem?_eq_getElem (by omega), Option.some.injEq]
  simp [spans, edgeAt, List.getElem?_eq_getElem room,
    List.getElem?_eq_getElem ((Nat.lt_succ_self i).trans room)]

theorem edgeAt_width (inside : i < b.size) : 0 < b.edgeAt i ∧ b.edgeAt i < b.edgeAt (i + 1) :=
  grid.widths _ (List.mem_of_getElem? (grid.getElem?_spans inside))

theorem edgeAt_mono (ordered : i ≤ j) (inside : j ≤ b.size) : b.edgeAt i ≤ b.edgeAt j := by
  induction j, ordered using Nat.le_induction with
  | base => exact le_rfl
  | succ j ordered ih => exact (ih (by omega)).trans (grid.edgeAt_width (by omega)).2.le

theorem getElem?_centres (inside : i < b.size) : b.centres[i]? = some (b.centreAt i) := by
  have room : i < b.centres.length := by
    rw [grid.shaped.centres]
    exact inside
  simp [centreAt, List.getElem?_eq_getElem room]

theorem getElem?_activeWeights (floor : ℝ) (inside : i < b.size) :
    (b.activeWeights floor)[i]? = some (b.weightAt floor i) := by
  simp [weightAt, activeWeights, grid.getElem?_spans inside]

theorem weightAt_eq (floor : ℝ) (inside : i < b.size) :
    b.weightAt floor i = activeWeight (b.edgeAt i) (b.edgeAt (i + 1)) floor := by
  simp [weightAt, activeWeights, grid.getElem?_spans inside]

theorem getElem?_activeMasses (floor : ℝ) (inside : i < b.size) :
    (b.activeMasses floor)[i]? = some (b.massAt i * b.weightAt floor i) :=
  List.getElem?_zipWith_eq_some.mpr
    ⟨_, _, getElem?_masses inside, grid.getElem?_activeWeights floor inside, rfl⟩

theorem length_activeMasses (floor : ℝ) : (b.activeMasses floor).length = b.size := by
  simp [activeMasses, activeWeights, grid.shaped.spans, size]

/-! ### Sums over the bins -/

omit grid in
theorem totalMass_eq_sum : b.totalMass.kilograms = ∑ i ∈ Finset.range b.size, b.massAt i := by
  rw [totalMass, sum_real]
  exact sum_eq_sum_range fun i m held => (massAt_of_getElem? held).symm

/-- The active mass is the sum of the active shares of the bins. -/
theorem mass_activeSummary (floor : ℝ) : (b.activeSummary floor).mass =
    ∑ i ∈ Finset.range b.size, b.massAt i * b.weightAt floor i := by
  have counted := grid.length_activeMasses floor
  rw [activeSummary, sum_real, sum_eq_sum_range (g := fun i => b.massAt i * b.weightAt floor i),
    counted]
  intro i m held
  rw [grid.getElem?_activeMasses floor (counted ▸ (List.getElem?_eq_some_iff.mp held).1)] at held
  exact (Option.some.inj held).symm

/-- The opacity is that of the bins, weighted by their active mass. -/
theorem kappa_mul_mass (floor : ℝ) (active : 0 < (b.activeSummary floor).mass) :
    (b.activeSummary floor).kappa * (b.activeSummary floor).mass =
      ∑ i ∈ Finset.range b.size,
        b.massAt i * b.weightAt floor i * b.opacity (b.centreAt i) := by
  have counted : (List.zipWith (fun m s => m * b.opacity s) (b.activeMasses floor)
      b.centres).length = b.size := by
    rw [List.length_zipWith, grid.length_activeMasses, grid.shaped.centres, size, min_self]
  have area : (List.zipWith (fun m s => m * b.opacity s) (b.activeMasses floor) b.centres).sum =
      ∑ i ∈ Finset.range b.size, b.massAt i * b.weightAt floor i * b.opacity (b.centreAt i) := by
    rw [sum_eq_sum_range (g := fun i =>
      b.massAt i * b.weightAt floor i * b.opacity (b.centreAt i)), counted]
    intro i x held
    have inside : i < b.size := counted ▸ (List.getElem?_eq_some_iff.mp held).1
    obtain ⟨m, s, mass, centre, rfl⟩ := List.getElem?_zipWith_eq_some.mp held
    rw [grid.getElem?_activeMasses floor inside] at mass
    rw [grid.getElem?_centres inside] at centre
    rw [Option.some.inj mass, Option.some.inj centre]
  simp only [activeSummary, sum_real] at active ⊢
  rw [if_pos active, div_mul_cancel₀ _ active.ne', area]

end IsGrid
end SizeBins
end DebrisDisk
