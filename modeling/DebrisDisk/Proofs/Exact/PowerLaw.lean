import DebrisDisk.Proofs.Exact.Grid

/-!
# Power laws over the grid

The mass of a power law between two sizes is a difference of one ascending function, the primitive
of the distribution. Clipped at a lower bound, the bins of a grid hold differences of that function
at neighbouring edges, so together they hold its difference between the ends of the grid. The fill
of the bins is then the continuous distribution, bin by bin.

The bins of a logarithmic grid have one ratio of edges. A bin holds more of a power law than the bin
below it when the mass grows with the size, and less when it falls.

## Main results

* `SizeBins.powerLawIntegral_eq_integral`: the closed forms are the integral of `s ^ (3 - q)`.
* `SizeBins.IsGrid.sum_powerLawIntegral`: clipped bins together make up the clipped grid.
* `SizeBins.IsGrid.sum_powerLawWeights`: the shares add up to one.
* `SizeBins.powerLawIntegral_ordered`: the order of the bins of a logarithmic grid.
* `SizeBins.withPowerLaw_exact`: which fills are refused, and what the bins of the others hold.
-/

namespace DebrisDisk
open Scalar

/-! ## Differences along a list -/

/-- The differences of a function between neighbours add up to its difference between the ends. -/
theorem sum_zip_tail_sub (f : ℝ → ℝ) {first last : ℝ} {l : List ℝ} (head : l.head? = some first)
    (ends : l.getLast? = some last) :
    ((l.zip l.tail).map fun p => f p.2 - f p.1).sum = f last - f first := by
  induction l generalizing first with
  | nil => simp at head
  | cons x rest ih =>
    obtain rfl : x = first := by simpa using head
    cases rest with
    | nil =>
      obtain rfl : x = last := by simpa using ends
      simp
    | cons y rest =>
      have next : (y :: rest).head? = some y := rfl
      have later := ih next (by simpa using ends)
      simp only [List.tail_cons, List.zip_cons_cons, List.map_cons, List.sum_cons] at later ⊢
      rw [later]
      ring

namespace SizeBins

/-! ## The primitive of a power law -/

/-- The mass up to a size, up to a constant, when it grows with the power `k` of the size. -/
noncomputable def powerLawPrimitive (k s : ℝ) : ℝ :=
  if |k| < 1e-12 then Real.log s else s ^ k / k

theorem powerLawIntegral_of_le {a b : ℝ} (q : ℝ) (empty : b ≤ a) : powerLawIntegral a b q = 0 :=
  if_pos empty

theorem powerLawIntegral_eq_sub {a b : ℝ} (q : ℝ) (positive : 0 < a) (ascending : a ≤ b) :
    powerLawIntegral a b q = powerLawPrimitive (4 - q) b - powerLawPrimitive (4 - q) a := by
  have four : (4.0 : ℝ) = 4 := by norm_num
  rcases ascending.eq_or_lt with rfl | apart
  · rw [powerLawIntegral_of_le q le_rfl, sub_self]
  · simp only [powerLawIntegral, powerLawPrimitive, if_neg (not_le.mpr apart), magnitude_real,
      ln_real, pow_real, four]
    split_ifs with flat
    · exact Real.log_div (positive.trans apart).ne' positive.ne'
    · exact sub_div _ _ _

/-- The part of a bin above a floor holds the difference of the primitive clipped there. -/
theorem powerLawIntegral_clipped {lo hi : ℝ} (floor q : ℝ) (positive : 0 < lo)
    (ascending : lo < hi) :
    powerLawIntegral (max lo floor) hi q =
      powerLawPrimitive (4 - q) (max hi floor) - powerLawPrimitive (4 - q) (max lo floor) := by
  rcases le_or_gt hi floor with below | above
  · rw [powerLawIntegral_of_le q (le_max_of_le_right below), max_eq_right below,
      max_eq_right (ascending.le.trans below), sub_self]
  · rw [max_eq_left above.le]
    exact powerLawIntegral_eq_sub q (lt_max_of_lt_left positive) (max_le ascending.le above.le)

theorem powerLawIntegral_pos {a b : ℝ} (q : ℝ) (positive : 0 < a) (ascending : a < b) :
    0 < powerLawIntegral a b q := by
  simp only [powerLawIntegral, ln_real, pow_real, magnitude_real]
  rw [if_neg (not_le.mpr ascending)]
  split_ifs with flat
  · exact Real.log_pos ((one_lt_div positive).mpr ascending)
  · have exponent : 4.0 - q ≠ 0 := fun zero => flat (by rw [zero, abs_zero]; norm_num)
    rcases lt_or_gt_of_ne exponent with negative | positiveExponent
    · exact div_pos_of_neg_of_neg
        (sub_neg.mpr (Real.rpow_lt_rpow_of_neg positive ascending negative)) negative
    · exact div_pos
        (sub_pos.mpr (Real.rpow_lt_rpow positive.le ascending positiveExponent)) positiveExponent

/-- Off the critical slope, and on it, the closed forms are the integral of the distribution. -/
theorem powerLawIntegral_eq_integral {a b q : ℝ} (positive : 0 < a) (ascending : a ≤ b)
    (slope : 1e-12 ≤ |4 - q| ∨ q = 4) :
    powerLawIntegral a b q = ∫ s in a..b, s ^ (3 - q) := by
  have top : 0 < b := positive.trans_le ascending
  rw [powerLawIntegral_eq_sub q positive ascending]
  rcases slope with steep | rfl
  · have exponent : 4 - q ≠ 0 := fun zero => by
      rw [zero, abs_zero] at steep
      norm_num at steep
    have apart : 3 - q ≠ -1 := fun critical => exponent (by linarith)
    have offZero : (0 : ℝ) ∉ Set.uIcc a b := by
      rw [Set.uIcc_of_le ascending]
      exact fun inside => positive.not_ge inside.1
    have successor : 3 - q + 1 = 4 - q := by ring
    rw [integral_rpow (.inr ⟨apart, offZero⟩), successor, powerLawPrimitive, powerLawPrimitive,
      if_neg (not_lt.mpr steep), if_neg (not_lt.mpr steep), sub_div]
  · have critical : (3 : ℝ) - 4 = -1 := by norm_num
    have inverse : (fun s : ℝ => s ^ ((3 : ℝ) - 4)) = fun s => s⁻¹ := by
      funext s
      rw [critical, Real.rpow_neg_one]
    have flat : |(4 : ℝ) - 4| < 1e-12 := by norm_num
    rw [inverse, integral_inv_of_pos positive top, Real.log_div top.ne' positive.ne',
      powerLawPrimitive, powerLawPrimitive, if_pos flat, if_pos flat]

/-- The part of a bin above a floor holds the integral over that part, which may be empty. -/
theorem powerLawIntegral_clipped_eq_integral {lo hi q : ℝ} (floor : ℝ) (positive : 0 < lo)
    (ascending : lo ≤ hi) (slope : 1e-12 ≤ |4 - q| ∨ q = 4) :
    powerLawIntegral (max lo floor) hi q = ∫ s in (max lo floor)..(max hi floor), s ^ (3 - q) := by
  rcases le_or_gt hi floor with below | above
  · rw [powerLawIntegral_of_le q (le_max_of_le_right below), max_eq_right below,
      max_eq_right (ascending.trans below), intervalIntegral.integral_same]
  · rw [max_eq_left above.le]
    exact powerLawIntegral_eq_integral (lt_max_of_lt_left positive) (max_le ascending above.le)
      slope

/-- A power law above the floor has no share below it. -/
theorem powerLawWeights_of_below {b : SizeBins ℝ} {floor q w : ℝ} {j : ℕ} {span : ℝ × ℝ}
    (share : (b.powerLawWeights floor q)[j]? = some w) (hspan : b.spans[j]? = some span)
    (below : span.2 ≤ floor) : w = 0 := by
  have nothing : powerLawIntegral (max span.1 floor) span.2 q = 0 :=
    powerLawIntegral_of_le q (le_max_of_le_right below)
  simp only [powerLawWeights, fmax_real] at share
  split_ifs at share
  · simp only [List.map_map, List.getElem?_map, hspan, Option.map_some, Function.comp_apply,
      nothing, zero_div, Option.some.injEq] at share
    exact share.symm
  · simp only [List.map_map, List.getElem?_map, hspan, Option.map_some, Function.comp_apply,
      Option.some.injEq] at share
    exact share.symm

/-- The part of a bin in a power law of the given mass from the size `lower` up. -/
noncomputable def powerLawMass (b : SizeBins ℝ) (total q lower : ℝ) (span : ℝ × ℝ) : ℝ :=
  total * (powerLawIntegral (max span.1 lower) span.2 q /
    powerLawIntegral (max b.minSize.metres lower) b.maxSize.metres q)

/-! ## The ends of the grid -/

theorem IsShaped.exists_mass {b : SizeBins ℝ} (shaped : b.IsShaped) {j : ℕ} {span : ℝ × ℝ}
    (bin : b.spans[j]? = some span) : ∃ m, b.masses[j]? = some m := by
  have inside := (List.getElem?_eq_some_iff.mp bin).1
  exact ⟨_, List.getElem?_eq_getElem (shaped.spans ▸ inside)⟩

theorem IsShaped.exists_span {b : SizeBins ℝ} (shaped : b.IsShaped) {j : ℕ} {m : ℝ}
    (held : b.masses[j]? = some m) : ∃ span, b.spans[j]? = some span := by
  have inside := (List.getElem?_eq_some_iff.mp held).1
  exact ⟨_, List.getElem?_eq_getElem (shaped.spans.symm ▸ inside)⟩

namespace IsGrid
variable {b : SizeBins ℝ} (grid : b.IsGrid)
include grid

theorem edges_ascend : b.edges.Pairwise (· < ·) := by
  rw [← List.isChain_iff_pairwise, List.isChain_iff_getElem]
  intro i hi
  have neighbours : (b.edges[i], b.edges[i + 1]) ∈ b.spans :=
    List.mem_iff_getElem.mpr ⟨i, by simp [spans]; omega, by simp [spans]⟩
  exact (grid.widths _ neighbours).2

variable {span : ℝ × ℝ} (h : span ∈ b.spans)
include h

omit grid in
theorem head_edges : b.edges.head? = some b.minSize.metres := by
  cases edges : b.edges with
  | nil => simp [spans, edges] at h
  | cons first rest => simp [minSize, edges]

omit grid in
theorem getLast_edges : b.edges.getLast? = some b.maxSize.metres := by
  cases edges : b.edges with
  | nil => simp [spans, edges] at h
  | cons first rest => simp [maxSize, edges, List.getLast?_cons]

theorem minSize_le : b.minSize.metres ≤ span.1 := by
  have edge : span.1 ∈ b.edges := (List.of_mem_zip h).1
  have least := (grid.edges_ascend.imp le_of_lt).rel_head edge
  rwa [← Option.some.inj ((List.head?_eq_some_head _).symm.trans (head_edges h))]

theorem le_maxSize : span.2 ≤ b.maxSize.metres := by
  have edge : span.2 ∈ b.edges := List.mem_of_mem_tail (List.of_mem_zip h).2
  have greatest := (grid.edges_ascend.imp le_of_lt).rel_getLast edge
  rwa [← Option.some.inj ((List.getLast?_eq_some_getLast _).symm.trans (getLast_edges h))]

theorem minSize_pos : 0 < b.minSize.metres := by
  obtain ⟨first, second, rest, edges⟩ : ∃ first second rest, b.edges = first :: second :: rest := by
    rcases edges : b.edges with _ | ⟨first, _ | ⟨second, rest⟩⟩
    · simp [spans, edges] at h
    · simp [spans, edges] at h
    · exact ⟨first, second, rest, rfl⟩
  have lowest := (grid.widths (first, second) (by simp [spans, edges])).1
  simpa [minSize, edges] using lowest

theorem minSize_lt_maxSize : b.minSize.metres < b.maxSize.metres :=
  (grid.minSize_le h).trans_lt ((grid.widths span h).2.trans_le (grid.le_maxSize h))

omit h in
/-- The bin that reaches the top of the grid is the last one. -/
theorem top_iff {j : ℕ} (hspan : b.spans[j]? = some span) :
    span.2 = b.maxSize.metres ↔ j + 1 = b.size := by
  obtain ⟨inside, rfl⟩ := List.getElem?_eq_some_iff.mp hspan
  have counted : b.size = b.edges.length - 1 := by
    rw [size, ← grid.shaped.spans, spans, List.length_zip, List.length_tail]
    omega
  have room : j + 1 < b.edges.length := by
    simp only [spans, List.length_zip, List.length_tail] at inside
    omega
  have last := getLast_edges (List.getElem_mem inside)
  rw [List.getLast?_eq_getElem?] at last
  obtain ⟨_, top⟩ := List.getElem?_eq_some_iff.mp last
  have upper : (b.spans[j]).2 = b.edges[j + 1] := by simp [spans]
  rw [upper, ← top]
  constructor
  · intro same
    by_contra short
    exact (List.pairwise_iff_getElem.mp grid.edges_ascend (j + 1) (b.edges.length - 1) room
      (by omega) (by omega)).ne same
  · intro final
    have index : j + 1 = b.edges.length - 1 := by omega
    simp only [index]

/-- A bin that is not the last reaches to the lower edge of another. -/
theorem exists_next (short : span.2 ≠ b.maxSize.metres) :
    ∃ next ∈ b.spans, next.1 = span.2 := by
  obtain ⟨j, hj⟩ := List.mem_iff_getElem?.mp h
  have inside := (List.getElem?_eq_some_iff.mp hj).1
  have before : j + 1 < b.spans.length := by
    have notLast : j + 1 ≠ b.size := fun last => short ((grid.top_iff hj).mpr last)
    rw [size, ← grid.shaped.spans] at notLast
    omega
  obtain ⟨_, rfl⟩ := List.getElem?_eq_some_iff.mp hj
  exact ⟨b.spans[j + 1], List.getElem_mem before, by simp [spans]⟩

/-- A grid that reaches above a floor holds something of a power law there. -/
theorem powerLawIntegral_pos_of_lt {floor : ℝ} (q : ℝ) (reaches : floor < b.maxSize.metres) :
    0 < powerLawIntegral (max b.minSize.metres floor) b.maxSize.metres q :=
  powerLawIntegral_pos q (lt_max_of_lt_left (grid.minSize_pos h))
    (max_lt (grid.minSize_lt_maxSize h) reaches)

/-- Clipped at a floor, the bins together hold the power law over the clipped grid. -/
theorem sum_powerLawIntegral (floor q : ℝ) :
    (b.spans.map fun s => powerLawIntegral (max s.1 floor) s.2 q).sum =
      powerLawIntegral (max b.minSize.metres floor) b.maxSize.metres q := by
  have clipped : b.spans.map (fun s => powerLawIntegral (max s.1 floor) s.2 q) =
      b.spans.map fun s =>
        powerLawPrimitive (4 - q) (max s.2 floor) - powerLawPrimitive (4 - q) (max s.1 floor) :=
    List.map_congr_left fun s hs =>
      powerLawIntegral_clipped floor q (grid.widths s hs).1 (grid.widths s hs).2
  rw [clipped, powerLawIntegral_clipped floor q (grid.minSize_pos h) (grid.minSize_lt_maxSize h)]
  exact sum_zip_tail_sub (fun s => powerLawPrimitive (4 - q) (max s floor)) (head_edges h)
    (getLast_edges h)

/-! ## Shares -/

/-- The share of a bin is its part of the power law over the clipped grid. -/
theorem powerLawWeights_eq {floor : ℝ} (q : ℝ) (reaches : floor < b.maxSize.metres) :
    b.powerLawWeights floor q = b.spans.map fun s =>
      powerLawIntegral (max s.1 floor) s.2 q /
        powerLawIntegral (max b.minSize.metres floor) b.maxSize.metres q := by
  have total := grid.powerLawIntegral_pos_of_lt h q reaches
  simp only [powerLawWeights, fmax_real, sum_real, isFinite_real, and_true]
  rw [grid.sum_powerLawIntegral h, if_pos total, List.map_map]
  rfl

/-- The shares of a power law add up to one when some bin reaches above the floor. -/
theorem sum_powerLawWeights {floor : ℝ} (q : ℝ) (reaches : floor < b.maxSize.metres) :
    (b.powerLawWeights floor q).sum = 1 := by
  have total := grid.powerLawIntegral_pos_of_lt h q reaches
  rw [grid.powerLawWeights_eq h q reaches]
  simp only [div_eq_mul_inv, List.sum_map_mul_right]
  rw [grid.sum_powerLawIntegral h, mul_inv_cancel₀ total.ne']

/-- A power law that reaches into the grid fills the bins with their parts of it. -/
theorem withPowerLaw_of_lt (total : Mass ℝ) (q : ℝ) {lower : Length ℝ}
    (reaches : lower.metres < b.maxSize.metres) :
    b.withPowerLaw total q lower = .ok { b with
      masses := b.spans.map (b.powerLawMass total.kilograms q lower.metres) } := by
  have sum := grid.sum_powerLawWeights h q reaches
  have some : (b.powerLawWeights lower.metres q).all isZero = false := by
    rw [Bool.eq_false_iff]
    intro none
    simp only [List.all_eq_true, isZero_real] at none
    rw [List.sum_eq_zero none] at sum
    exact zero_ne_one sum
  have filled : List.zipWith (fun _ w => total.kilograms * w) b.masses
      (b.powerLawWeights lower.metres q) =
        b.spans.map (b.powerLawMass total.kilograms q lower.metres) := by
    rw [grid.powerLawWeights_eq h q reaches]
    exact List.ext_getElem (by simp [grid.shaped.spans]) fun j _ _ => by simp [powerLawMass]
  simp [withPowerLaw, some, require, bind, Except.bind, pure, Except.pure, filled]

/-- The parts make up the whole. -/
theorem sum_powerLawMass (total q : ℝ) {lower : ℝ} (reaches : lower < b.maxSize.metres) :
    (b.spans.map (b.powerLawMass total q lower)).sum = total := by
  have parts : b.spans.map (b.powerLawMass total q lower) =
      (b.powerLawWeights lower q).map (total * ·) := by
    rw [grid.powerLawWeights_eq h q reaches, List.map_map]
    rfl
  rw [parts, List.sum_map_mul_left (b.powerLawWeights lower q) (fun w => w) total, List.map_id',
    grid.sum_powerLawWeights h q reaches, mul_one]

/-- A power law that reaches into the grid fills the bins with just its mass. -/
theorem exists_withPowerLaw (total : Mass ℝ) (q : ℝ) {lower : Length ℝ}
    (reaches : lower.metres < b.maxSize.metres) :
    ∃ filled, b.withPowerLaw total q lower = .ok filled ∧ filled.totalMass = total := by
  refine ⟨_, grid.withPowerLaw_of_lt h total q reaches, ?_⟩
  ext
  simp only [totalMass, sum_real]
  exact grid.sum_powerLawMass h total.kilograms q reaches

omit h in
/-- A power law above the whole grid is refused. -/
theorem withPowerLaw_of_le (total : Mass ℝ) (q : ℝ) {lower : Length ℝ}
    (above : b.maxSize.metres ≤ lower.metres) :
    b.withPowerLaw total q lower = .error .populationOutsideGrid := by
  have nothing : ∀ w ∈ b.powerLawWeights lower.metres q, w = 0 := by
    intro w hw
    obtain ⟨j, hj⟩ := List.mem_iff_getElem?.mp hw
    have inside : j < b.spans.length := by
      simpa using (List.getElem?_eq_some_iff.mp hj).1
    exact powerLawWeights_of_below hj (List.getElem?_eq_getElem inside)
      ((grid.le_maxSize (List.getElem_mem inside)).trans above)
  have none : (b.powerLawWeights lower.metres q).all isZero = true := by
    simpa only [List.all_eq_true, isZero_real] using nothing
  simp [withPowerLaw, none, require, bind, Except.bind]

end IsGrid

/-! ## Logarithmic grids -/

/-- Two sizes in order bound a logarithmic grid with any number of bins. -/
theorem exists_logSpaced {low high : Length ℝ} {n : ℕ} {density : Density ℝ}
    (positive : 0 < low.metres) (ascending : low.metres < high.metres) (some : n ≠ 0)
    (solid : 0 < density.kgPerM3) : ∃ b, logSpaced low high n density = .ok b := by
  simp [logSpaced, bind_eq_ok_iff, positive, ascending, some, solid, pure, Except.pure]

section Spaced
variable {low high : Length ℝ} {n : ℕ} {density : Density ℝ} {b : SizeBins ℝ}
  (spaced : logSpaced low high n density = .ok b)
include spaced

/-- A logarithmic grid has a bin. -/
theorem exists_span_of_logSpaced : ∃ span, span ∈ b.spans := by
  obtain ⟨_, nonempty, shaped, _, empty⟩ := logSpaced_eq_ok spaced
  refine List.exists_mem_of_length_pos ?_
  rw [shaped.spans, empty, List.length_replicate]
  exact Nat.pos_of_ne_zero nonempty

/-- A logarithmic grid reaches from the smallest to the greatest size. -/
theorem ends_of_logSpaced : b.minSize = low ∧ b.maxSize = high := by
  obtain ⟨⟨positive, ascending, _⟩, nonempty, _, edges, _⟩ := logSpaced_eq_ok spaced
  have count : (n : ℝ) ≠ 0 := by exact_mod_cast nonempty
  have bottom : b.edges.head? = some low.metres := by
    simp [edges, logEdges, List.head?_range, Real.exp_log positive]
  have top : b.edges.getLast? = some high.metres := by
    simp [edges, logEdges, List.getLast?_range, count, Real.exp_log (positive.trans ascending)]
  constructor
  · ext
    simp [minSize, bottom]
  · ext
    simp [maxSize, top]

/-- The bins of a logarithmic grid have one ratio of edges. -/
theorem exists_ratio_of_logSpaced :
    ∃ ratio, 1 < ratio ∧ ∀ span ∈ b.spans, span.2 = span.1 * ratio := by
  obtain ⟨⟨positive, ascending, _⟩, nonempty, _, edges, _⟩ := logSpaced_eq_ok spaced
  have count : (0 : ℝ) < n := by exact_mod_cast Nat.pos_of_ne_zero nonempty
  have width : 0 < Real.log high.metres - Real.log low.metres :=
    sub_pos.mpr (Real.log_lt_log positive ascending)
  refine ⟨Real.exp ((Real.log high.metres - Real.log low.metres) / n),
    Real.one_lt_exp_iff.mpr (div_pos width count), fun span h => ?_⟩
  obtain ⟨j, hj, rfl⟩ := List.mem_iff_getElem.mp h
  simp only [spans, edges, logEdges, List.getElem_zip, List.getElem_tail, List.getElem_map,
    List.getElem_range, exp_real, ln_real, ofNat_real]
  rw [← Real.exp_add]
  congr 1
  push_cast
  ring

end Spaced

/-! ## The order of the bins -/

/-- Stretched bins hold the power law of a unit bin, scaled with the power of their size. -/
theorem powerLawIntegral_scaled {a ratio q : ℝ} (positive : 0 < a) (stretched : 1 < ratio)
    (slope : 1e-12 ≤ |4 - q| ∨ q = 4) :
    powerLawIntegral a (a * ratio) q = a ^ (4 - q) * powerLawIntegral 1 ratio q := by
  have ratioPositive : 0 < ratio := zero_lt_one.trans stretched
  rw [powerLawIntegral_eq_sub q positive (le_mul_of_one_le_right positive.le stretched.le),
    powerLawIntegral_eq_sub q zero_lt_one stretched.le]
  simp only [powerLawPrimitive]
  split_ifs with flat
  · obtain rfl : q = 4 := slope.resolve_left (not_le.mpr flat)
    rw [Real.log_mul positive.ne' ratioPositive.ne', sub_self, Real.rpow_zero, Real.log_one]
    ring
  · rw [Real.mul_rpow positive.le ratioPositive.le, Real.one_rpow]
    ring

/-- The bins of a logarithmic grid hold more of a power law with their size when its mass grows with
the size, all the same at the critical slope, and less when its mass falls. -/
theorem powerLawIntegral_ordered {s t : ℝ × ℝ} {ratio q : ℝ} (stretched : 1 < ratio)
    (slope : 1e-12 ≤ |4 - q| ∨ q = 4) (positive : 0 < s.1) (apart : s.1 < t.1)
    (lower : s.2 = s.1 * ratio) (upper : t.2 = t.1 * ratio) :
    (q < 4 → powerLawIntegral s.1 s.2 q < powerLawIntegral t.1 t.2 q) ∧
      (q = 4 → powerLawIntegral s.1 s.2 q = powerLawIntegral t.1 t.2 q) ∧
      (4 < q → powerLawIntegral t.1 t.2 q < powerLawIntegral s.1 s.2 q) := by
  have unit : 0 < powerLawIntegral 1 ratio q := powerLawIntegral_pos q zero_lt_one stretched
  rw [lower, upper, powerLawIntegral_scaled positive stretched slope,
    powerLawIntegral_scaled (positive.trans apart) stretched slope]
  refine ⟨fun shallow => ?_, fun critical => ?_, fun steep => ?_⟩
  · exact mul_lt_mul_of_pos_right (Real.rpow_lt_rpow positive.le apart (sub_pos.mpr shallow)) unit
  · rw [critical, sub_self, Real.rpow_zero, Real.rpow_zero]
  · exact mul_lt_mul_of_pos_right
      (Real.rpow_lt_rpow_of_neg positive apart (sub_neg.mpr steep)) unit

/-! ## The fill -/

/-- The bins hold a power law of the given mass from the size `lower` up. -/
structure IsPowerLaw (b : SizeBins ℝ) (total q lower : ℝ) : Prop where
  nonneg : b.IsNonneg
  sum : b.totalMass.kilograms = total
  empty : ∀ (j : ℕ) span m, b.spans[j]? = some span → b.masses[j]? = some m →
    span.2 ≤ lower → m = 0
  /-- There is something of the distribution between the lower bound and the top of the grid. -/
  whole : 0 < ∫ s in (max b.minSize.metres lower)..b.maxSize.metres, s ^ (3 - q)
  /-- Each bin has its part of the distribution above the lower bound. -/
  part : ∀ (j : ℕ) span m, b.spans[j]? = some span → b.masses[j]? = some m →
    m = total * (∫ s in (max span.1 lower)..(max span.2 lower), s ^ (3 - q)) /
      ∫ s in (max b.minSize.metres lower)..b.maxSize.metres, s ^ (3 - q)

/-- The masses of the bins follow the slope: they grow with the size below the critical slope, are
the same at it, and fall above. -/
structure IsOrdered (b : SizeBins ℝ) (q : ℝ) : Prop where
  ascends : q < 4 → b.masses.Pairwise (· < ·)
  flat : q = 4 → b.masses.Pairwise (· = ·)
  descends : 4 < q → b.masses.Pairwise (· > ·)

section Fill
variable {b : SizeBins ℝ} (grid : b.IsGrid) {span : ℝ × ℝ} (h : span ∈ b.spans) {total q lower : ℝ}
  (some : 0 < total) (slope : 1e-12 ≤ |4 - q| ∨ q = 4) (reaches : lower < b.maxSize.metres)
include grid h some slope reaches

/-- Bins filled with their parts hold a power law. -/
theorem IsGrid.isPowerLaw :
    IsPowerLaw { b with masses := b.spans.map (b.powerLawMass total q lower) } total q lower := by
  have bottom : max b.minSize.metres lower < b.maxSize.metres :=
    max_lt (grid.minSize_lt_maxSize h) reaches
  have positive : 0 < max b.minSize.metres lower := lt_max_of_lt_left (grid.minSize_pos h)
  have whole := grid.powerLawIntegral_pos_of_lt h q reaches
  have integral := powerLawIntegral_eq_integral positive bottom.le slope
  have held : ∀ (j : ℕ) s m, b.spans[j]? = .some s →
      (b.spans.map (b.powerLawMass total q lower))[j]? = .some m →
        m = b.powerLawMass total q lower s := by
    intro j s m hs hm
    rw [List.getElem?_map, hs, Option.map_some, Option.some.injEq] at hm
    exact hm.symm
  constructor
  case nonneg =>
    intro m hm
    obtain ⟨s, hs, rfl⟩ := List.mem_map.mp hm
    have part : 0 ≤ powerLawIntegral (max s.1 lower) s.2 q :=
      powerLawIntegral_nonneg _ _ (lt_max_of_lt_left (grid.widths s hs).1)
    exact mul_nonneg some.le (div_nonneg part whole.le)
  case sum =>
    simp only [totalMass, sum_real]
    exact grid.sum_powerLawMass h total q reaches
  case empty =>
    intro j s m hs hm below
    rw [held j s m hs hm, powerLawMass, powerLawIntegral_of_le q (le_max_of_le_right below),
      zero_div, mul_zero]
  case whole => exact integral ▸ whole
  case part =>
    intro j s m hs hm
    have width := grid.widths s (List.mem_of_getElem? hs)
    rw [held j s m hs hm, powerLawMass, integral, mul_div_assoc,
      powerLawIntegral_clipped_eq_integral lower width.1 width.2.le slope]
    rfl

/-- Bins of one ratio filled from the bottom of the grid follow the slope. -/
theorem IsGrid.isOrdered {ratio : ℝ} (stretched : 1 < ratio)
    (spacing : ∀ s ∈ b.spans, s.2 = s.1 * ratio) (below : lower ≤ b.minSize.metres) :
    IsOrdered { b with masses := b.spans.map (b.powerLawMass total q lower) } q := by
  have whole := grid.powerLawIntegral_pos_of_lt h q reaches
  have unclipped : ∀ s ∈ b.spans, max s.1 lower = s.1 := fun s hs =>
    max_eq_left (below.trans (grid.minSize_le hs))
  have scaled {x y : ℝ} (less : x < y) :
      total * (x / powerLawIntegral (max b.minSize.metres lower) b.maxSize.metres q) <
        total * (y / powerLawIntegral (max b.minSize.metres lower) b.maxSize.metres q) :=
    mul_lt_mul_of_pos_left (div_lt_div_of_pos_right less whole) some
  have ordered : b.spans.Pairwise fun s t =>
      (q < 4 → b.powerLawMass total q lower s < b.powerLawMass total q lower t) ∧
        (q = 4 → b.powerLawMass total q lower s = b.powerLawMass total q lower t) ∧
        (4 < q → b.powerLawMass total q lower t < b.powerLawMass total q lower s) := by
    refine grid.ascends.imp_of_mem fun {s t} hs ht before => ?_
    obtain ⟨shallow, critical, steep⟩ := powerLawIntegral_ordered stretched slope
      (grid.widths s hs).1 ((grid.widths s hs).2.trans_le before) (spacing s hs) (spacing t ht)
    simp only [powerLawMass, unclipped s hs, unclipped t ht]
    exact ⟨fun law => scaled (shallow law), fun law => by rw [critical law],
      fun law => scaled (steep law)⟩
  constructor
  case ascends => exact fun law => List.pairwise_map.mpr (ordered.imp fun order => order.1 law)
  case flat => exact fun law => List.pairwise_map.mpr (ordered.imp fun order => order.2.1 law)
  case descends => exact fun law => List.pairwise_map.mpr (ordered.imp fun order => order.2.2 law)

end Fill

/-- **A power law is refused just when its lower bound is not below the top of the grid. Otherwise
the bins hold the continuous distribution, and follow the slope if it fills the whole grid.** -/
theorem withPowerLaw_exact {low high : Length ℝ} {n : ℕ} {density : Density ℝ} {b : SizeBins ℝ}
    (spaced : logSpaced low high n density = .ok b) (total : Mass ℝ) (some : 0 < total.kilograms)
    {q : ℝ} (slope : 1e-12 ≤ |4 - q| ∨ q = 4) (lower : Length ℝ) :
    (b.withPowerLaw total q lower = .error .populationOutsideGrid ↔
      b.maxSize.metres ≤ lower.metres) ∧
    (lower.metres < b.maxSize.metres → ∃ filled, b.withPowerLaw total q lower = .ok filled ∧
      b.SameGrid filled ∧ filled.IsPowerLaw total.kilograms q lower.metres ∧
      (lower.metres ≤ b.minSize.metres → filled.IsOrdered q)) := by
  obtain ⟨grid, -⟩ := isGrid_logSpaced spaced
  obtain ⟨span, h⟩ := exists_span_of_logSpaced spaced
  obtain ⟨ratio, stretched, spacing⟩ := exists_ratio_of_logSpaced spaced
  constructor
  · refine ⟨fun refused => ?_, grid.withPowerLaw_of_le total q⟩
    by_contra reaches
    rw [grid.withPowerLaw_of_lt h total q (not_le.mp reaches)] at refused
    exact nomatch refused
  · intro reaches
    have filled := grid.withPowerLaw_of_lt h total q reaches
    exact ⟨_, filled, sameGrid_withPowerLaw grid.shaped filled,
      grid.isPowerLaw h some slope reaches,
      grid.isOrdered h some slope reaches stretched spacing⟩

/-- Forty bins up to three metres can be filled with the slope of a steady cascade. -/
theorem exists_isPowerLaw_of_cascade : ∃ b filled : SizeBins ℝ,
    logSpaced ⟨1e-7⟩ ⟨3⟩ 40 ⟨3000⟩ = .ok b ∧ b.withPowerLaw ⟨1⟩ 3.5 ⟨1e-7⟩ = .ok filled ∧
      filled.IsPowerLaw 1 3.5 1e-7 ∧ filled.IsOrdered 3.5 := by
  obtain ⟨b, spaced⟩ : ∃ b : SizeBins ℝ, logSpaced ⟨1e-7⟩ ⟨3⟩ 40 ⟨3000⟩ = .ok b :=
    exists_logSpaced (by norm_num) (by norm_num) (by norm_num) (by norm_num)
  obtain ⟨bottom, top⟩ := ends_of_logSpaced spaced
  have reaches : (1e-7 : ℝ) < b.maxSize.metres := by
    rw [top]
    norm_num
  obtain ⟨filled, ok, _, holds, ordered⟩ := (withPowerLaw_exact spaced ⟨1⟩ zero_lt_one
    (q := 3.5) (.inl (by norm_num [abs_of_pos])) ⟨1e-7⟩).2 reaches
  exact ⟨b, filled, spaced, ok, holds, ordered (by rw [bottom])⟩

end SizeBins
end DebrisDisk
