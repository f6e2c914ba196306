import Mathlib
import DebrisDisk.Proofs.Exact.Interpolation

/-!
# The local fit

The Clausius law is a line in the inverse of the temperature. The residuals of the line of least
squares add up to zero, and so do their products with the inverse temperatures; so any other line
has the squares of these residuals and, on top, the squares of its distances from the first. It is
the only line with the least squares once two rows differ in temperature, and therefore the law of
the rows if they have one.

The rows are those within a window, or the nearest ones if the window holds too few. Sorting by
distance is stable, so that rows of one distance keep the order of the table.

## Main definitions

* `LocalFit.squares`, `LocalFit.spread`: the squares of the residuals, and the divisor of the slope.
* `LocalFit.IsNearest`, `LocalFit.IsSelection`: the rows that are picked.
* `LocalFit.IsFitAt`: what the fit gives at a temperature.

## Main results

* `LocalFit.squares_eq_add`: a line against the line of least squares.
* `LocalFit.isSelection_pick`: the rows in the window or the nearest rows.
* `LocalFit.fits_of_accepted`: every fit that is accepted, at every temperature.
-/

namespace DebrisDisk
open Scalar

namespace LocalFit

/-! ## The line of least squares -/

/-- The mean of the inverse temperatures. -/
noncomputable def meanInverse (rows : List (PressureRow ℝ)) : ℝ :=
  (rows.map fun r => 1 / r.temperature).sum / rows.length

/-- The mean of the logarithms of the pressure. -/
noncomputable def meanLog (rows : List (PressureRow ℝ)) : ℝ :=
  (rows.map (·.log10Pressure)).sum / rows.length

/-- The products of the deviations of inverse temperature and logarithm from their means. -/
noncomputable def covariation (rows : List (PressureRow ℝ)) : ℝ :=
  (rows.map fun r => (1 / r.temperature - meanInverse rows) * (r.log10Pressure - meanLog rows)).sum

/-- The squares of the deviations of the inverse temperatures from their mean. -/
noncomputable def spread (rows : List (PressureRow ℝ)) : ℝ :=
  (rows.map fun r =>
    (1 / r.temperature - meanInverse rows) * (1 / r.temperature - meanInverse rows)).sum

/-- The distance of a row from a law. -/
noncomputable def residual (c : ClausiusCoefficients ℝ) (r : PressureRow ℝ) : ℝ :=
  r.log10Pressure - c.log10Pressure r.temperature

/-- The squares of the distances of rows from a law. -/
noncomputable def squares (rows : List (PressureRow ℝ)) (c : ClausiusCoefficients ℝ) : ℝ :=
  (rows.map fun r => residual c r ^ 2).sum

/-- Deviations from the mean add up to zero. -/
theorem sum_sub_mean {β : Type} {xs : List β} (nonempty : xs ≠ []) (f : β → ℝ) :
    (xs.map fun x => f x - (xs.map f).sum / xs.length).sum = 0 := by
  have count : (xs.length : ℝ) ≠ 0 := by simpa using nonempty
  simp only [sub_eq_add_neg, List.sum_map_add, List.map_const', List.sum_replicate, nsmul_eq_mul]
  field_simp
  ring

/-- Two rows differ in temperature. -/
def Varies (rows : List (PressureRow ℝ)) : Prop :=
  ∃ r ∈ rows, ∃ s ∈ rows, r.temperature ≠ s.temperature

section LeastSquares
variable {rows : List (PressureRow ℝ)}

theorem Varies.nonempty (varies : Varies rows) : rows ≠ [] := by
  obtain ⟨r, mem, _⟩ := varies
  exact List.ne_nil_of_mem mem

theorem Varies.spread_pos (varies : Varies rows) : 0 < spread rows := by
  obtain ⟨r, hr, s, hs, differ⟩ := varies
  have apart : 1 / r.temperature ≠ 1 / s.temperature := by simpa using differ
  have single (q : PressureRow ℝ) (hq : q ∈ rows) (off : 1 / q.temperature ≠ meanInverse rows) :
      0 < spread rows := by
    refine (mul_self_pos.mpr (sub_ne_zero.mpr off)).trans_le
      (List.single_le_sum ?_ _ (List.mem_map_of_mem hq))
    exact List.forall_mem_map.mpr fun r _ => mul_self_nonneg (1 / r.temperature - meanInverse rows)
  by_cases off : 1 / r.temperature = meanInverse rows
  · exact single s hs (off ▸ apart.symm)
  · exact single r hr off

/-- The guard of the quotient is not used where two rows differ. -/
theorem leastSquares_eq (positive : 0 < spread rows) :
    leastSquares rows = {
      a := meanLog rows - covariation rows / spread rows * meanInverse rows
      b := -(covariation rows / spread rows) } := by
  have positive' := positive
  simp only [spread, meanInverse] at positive'
  simp only [leastSquares, sum_real, ofNat_real, positive', if_true]
  rfl

theorem residual_leastSquares (positive : 0 < spread rows) (r : PressureRow ℝ) :
    residual (leastSquares rows) r = (r.log10Pressure - meanLog rows)
      - covariation rows / spread rows * (1 / r.temperature - meanInverse rows) := by
  rw [residual, leastSquares_eq positive, ClausiusCoefficients.log10Pressure]
  ring

/-- The residuals of the line of least squares add up to zero. -/
theorem Varies.sum_residual (varies : Varies rows) :
    (rows.map (residual (leastSquares rows))).sum = 0 := by
  have logs := sum_sub_mean varies.nonempty fun r : PressureRow ℝ => r.log10Pressure
  have inverses := sum_sub_mean varies.nonempty fun r : PressureRow ℝ => 1 / r.temperature
  set slope := covariation rows / spread rows with hslope
  calc
    (rows.map (residual (leastSquares rows))).sum
      = (rows.map fun r => (r.log10Pressure - meanLog rows)
          + -slope * (1 / r.temperature - meanInverse rows)).sum := by
        simp only [funext (residual_leastSquares varies.spread_pos), sub_eq_add_neg, neg_mul,
          hslope]
    _ = 0 := by
        rw [List.sum_map_add, List.sum_map_mul_left]
        simp only [meanLog, meanInverse, logs, inverses, mul_zero, add_zero]

/-- So do their products with the inverse temperatures. -/
theorem Varies.sum_residual_mul (varies : Varies rows) :
    (rows.map fun r => 1 / r.temperature * residual (leastSquares rows) r).sum = 0 := by
  have positive := varies.spread_pos
  set slope := covariation rows / spread rows with hslope
  have deviations : (rows.map fun r =>
      (1 / r.temperature - meanInverse rows) * residual (leastSquares rows) r).sum = 0 := by
    calc
      _ = (rows.map fun r =>
            (1 / r.temperature - meanInverse rows) * (r.log10Pressure - meanLog rows)
            + -slope * ((1 / r.temperature - meanInverse rows)
              * (1 / r.temperature - meanInverse rows))).sum := by
          congr 1
          refine List.map_congr_left fun r _ => ?_
          rw [residual_leastSquares positive]
          ring
      _ = covariation rows + -slope * spread rows := by
          rw [List.sum_map_add, List.sum_map_mul_left]
          rfl
      _ = 0 := by
          rw [hslope]
          field_simp
          ring
  calc
    _ = (rows.map fun r =>
          (1 / r.temperature - meanInverse rows) * residual (leastSquares rows) r
          + meanInverse rows * residual (leastSquares rows) r).sum := by
        congr 1
        refine List.map_congr_left fun r _ => ?_
        ring
    _ = 0 := by
        rw [List.sum_map_add, List.sum_map_mul_left, deviations, varies.sum_residual]
        simp

/-- A line has the squares of the line of least squares, and those of its distances from it. -/
theorem squares_eq_add (varies : Varies rows) (c : ClausiusCoefficients ℝ) :
    squares rows c = squares rows (leastSquares rows)
      + (rows.map fun r => (c.log10Pressure r.temperature
          - (leastSquares rows).log10Pressure r.temperature) ^ 2).sum := by
  set best := leastSquares rows with hbest
  have split (r : PressureRow ℝ) : residual c r ^ 2 = residual best r ^ 2
      + (c.log10Pressure r.temperature - best.log10Pressure r.temperature) ^ 2
      + (-2 * (c.a - best.a) * residual best r
        + 2 * (c.b - best.b) * (1 / r.temperature * residual best r)) := by
    simp only [residual, ClausiusCoefficients.log10Pressure]
    ring
  simp only [squares, split, List.sum_map_add, List.sum_map_mul_left, varies.sum_residual, hbest,
    varies.sum_residual_mul]
  ring

/-- No line has fewer squares. -/
theorem Varies.squares_le (varies : Varies rows) (c : ClausiusCoefficients ℝ) :
    squares rows (leastSquares rows) ≤ squares rows c := by
  rw [squares_eq_add varies c]
  exact le_add_of_nonneg_right (List.sum_nonneg (List.forall_mem_map.mpr fun _ _ => sq_nonneg _))

/-- No other line has as few. -/
theorem Varies.eq_leastSquares (varies : Varies rows) {c : ClausiusCoefficients ℝ}
    (few : squares rows c ≤ squares rows (leastSquares rows)) : c = leastSquares rows := by
  set best := leastSquares rows with hbest
  have none : (rows.map fun r =>
      (c.log10Pressure r.temperature - best.log10Pressure r.temperature) ^ 2).sum ≤ 0 := by
    rw [squares_eq_add varies c] at few
    linarith
  have same (r : PressureRow ℝ) (hr : r ∈ rows) :
      c.a - c.b * (1 / r.temperature) = best.a - best.b * (1 / r.temperature) := by
    have part : (c.log10Pressure r.temperature - best.log10Pressure r.temperature) ^ 2 ≤ 0 := by
      refine (List.single_le_sum ?_ _ (List.mem_map.mpr ⟨r, hr, rfl⟩)).trans none
      exact List.forall_mem_map.mpr fun _ _ => sq_nonneg _
    have equal := pow_eq_zero_iff two_ne_zero |>.mp (le_antisymm part (sq_nonneg _))
    simpa only [ClausiusCoefficients.log10Pressure, sub_eq_zero, mul_one_div] using equal
  obtain ⟨r, hr, s, hs, differ⟩ := varies
  have apart : 1 / r.temperature - 1 / s.temperature ≠ 0 := by
    rw [sub_ne_zero]
    simpa using differ
  have slope : c.b = best.b := by
    refine mul_right_cancel₀ apart ?_
    linarith [same r hr, same s hs]
  have constant : c.a = best.a := by
    have at_r := same r hr
    rw [slope] at at_r
    linarith
  cases c
  simp_all

/-- A law that all rows obey is the line of least squares. -/
theorem Varies.leastSquares_of_law (varies : Varies rows) {c : ClausiusCoefficients ℝ}
    (law : ∀ r ∈ rows, r.log10Pressure = c.log10Pressure r.temperature) :
    leastSquares rows = c := by
  have exact : squares rows c = 0 := by
    refine List.sum_eq_zero fun y hy => ?_
    obtain ⟨r, hr, rfl⟩ := List.mem_map.mp hy
    rw [residual, law r hr, sub_self, zero_pow two_ne_zero]
  refine (varies.eq_leastSquares ?_).symm
  rw [exact]
  exact List.sum_nonneg (List.forall_mem_map.mpr fun _ _ => sq_nonneg _)

end LeastSquares

/-! ## The rows that are picked -/

/-- Of two entries with one key, the sort keeps the one that stood first in front, so an entry among
the first that were sorted has a lower key than any other, or the same key and a lower place. -/
theorem lt_of_mem_take_mergeSort {β κ : Type} [LinearOrder κ] {key : β → κ} {xs : List β}
    {le : β → β → Bool} (byKey : ∀ x y, le x y = true ↔ key x ≤ key y) (distinct : xs.Nodup)
    {m i j : ℕ} {x y : β} (hx : xs[i]? = some x) (hy : xs[j]? = some y)
    (picked : x ∈ (xs.mergeSort le).take m) (left : y ∉ (xs.mergeSort le).take m) :
    key x < key y ∨ key x = key y ∧ i < j := by
  have trans : ∀ a b c, le a b = true → le b c = true → le a c = true := fun a b c => by
    simp only [byKey]
    exact le_trans
  have total : ∀ a b, (le a b || le b a) = true := fun a b => by
    simp only [Bool.or_eq_true, byKey]
    exact le_total _ _
  -- Sorted together with their places, the entries ascend by key and then by place.
  set places := xs.zipIdx.mergeSort (List.zipIdxLE le) with hplaces
  have sorted : places.Pairwise fun a b => List.zipIdxLE le a b = true :=
    List.pairwise_mergeSort (List.zipIdxLE_trans trans) (List.zipIdxLE_total total) _
  rw [← List.mergeSort_zipIdx, ← List.map_take, List.mem_map] at picked left
  obtain ⟨⟨x', i'⟩, inFront, rfl⟩ := picked
  have same : i' = i := by
    have inPlaces := (List.mergeSort_perm _ _).mem_iff.mp (List.mem_of_mem_take inFront)
    have found : xs[i']? = some x' := List.mem_zipIdx_iff_getElem?.mp inPlaces
    have inside : i' < xs.length := (List.getElem?_eq_some_iff.mp found).1
    exact (List.getElem?_inj inside distinct).mp (found.trans hx.symm)
  subst same
  have behind : (y, j) ∈ places.drop m := by
    have inPlaces : (y, j) ∈ places :=
      (List.mergeSort_perm _ _).mem_iff.mpr (List.mem_zipIdx_iff_getElem?.mpr hy)
    rw [← List.take_append_drop m places, List.mem_append] at inPlaces
    exact inPlaces.resolve_left fun front => left ⟨(y, j), front, rfl⟩
  have ordered := sorted.rel_of_mem_take_of_mem_drop inFront behind
  simp only [List.zipIdxLE, byKey] at ordered
  split at ordered
  · rename_i atMost
    rcases atMost.lt_or_eq with less | equal
    · exact .inl less
    · have inOrder : i' ≤ j := by simpa [equal] using ordered
      refine .inr ⟨equal, inOrder.lt_of_ne fun one => left ⟨(x', i'), inFront, ?_⟩⟩
      subst one
      exact Option.some.inj (hx.symm.trans hy)
  · cases ordered

/-- The rows within a distance of a temperature. -/
noncomputable def within (rows : List (PressureRow ℝ)) (window centre : ℝ) :
    List (PressureRow ℝ) :=
  rows.filter fun r => decide (|r.temperature - centre| ≤ window)

/-- A number of rows that are nearer to a temperature than all others, of equally distant rows those
that stand first. -/
structure IsNearest (rows : List (PressureRow ℝ)) (centre : ℝ) (count : ℕ)
    (picked : List (PressureRow ℝ)) : Prop where
  length : picked.length = count
  subperm : picked.Subperm rows
  nearer : ∀ (i j : ℕ) r s, rows[i]? = some r → rows[j]? = some s → r ∈ picked → s ∉ picked →
    |r.temperature - centre| < |s.temperature - centre| ∨
      |r.temperature - centre| = |s.temperature - centre| ∧ i < j

/-- Enough rows: all within the window, or the nearest where these are too few. -/
structure IsSelection (rows : List (PressureRow ℝ)) (window : ℝ) (minPoints : ℕ) (centre : ℝ)
    (picked : List (PressureRow ℝ)) : Prop where
  enough : minPoints ≤ picked.length
  all : minPoints ≤ (within rows window centre).length → picked = within rows window centre
  nearest : (within rows window centre).length < minPoints →
    IsNearest rows centre minPoints picked

end LocalFit

namespace PressureRow.IsTable
variable {rows : List (PressureRow ℝ)} (table : PressureRow.IsTable rows)
include table

theorem pairwise : rows.Pairwise fun r s => r.temperature < s.temperature :=
  List.pairwise_map.mp (Table.descends_eq_false_iff.mp table.ascending)

theorem nodup_temperatures : (rows.map (·.temperature)).Nodup :=
  List.pairwise_map.mpr (table.pairwise.imp fun less => ne_of_lt less)

/-- Of several rows of a table two differ in temperature. -/
theorem varies {picked : List (PressureRow ℝ)} (some : picked.Subperm rows)
    (several : 2 ≤ picked.length) : LocalFit.Varies picked := by
  have distinct : (picked.map (·.temperature)).Nodup := by
    obtain ⟨part, same, sublist⟩ := some
    exact (same.map _).nodup_iff.mp ((sublist.map _).nodup table.nodup_temperatures)
  match picked, several, distinct with
  | r :: s :: rest, _, distinct =>
    refine ⟨r, by simp, s, by simp, fun same => ?_⟩
    simp [same] at distinct

theorem lowest_le_highest : lowest rows ≤ highest rows := by
  have several := table.several
  have first : 0 < rows.length := by omega
  have last : rows.length - 1 < rows.length := by omega
  have ends : rows[0].temperature < rows[rows.length - 1].temperature :=
    List.pairwise_iff_getElem.mp table.pairwise 0 (rows.length - 1) first last (by omega)
  simpa [lowest, highest, List.head?_eq_getElem?, List.getLast?_eq_getElem?, first, last]
    using ends.le

end PressureRow.IsTable

namespace LocalFit

/-- The temperature moved into the range of the rows. -/
noncomputable def centre (rows : List (PressureRow ℝ)) (t : ℝ) : ℝ :=
  max (PressureRow.lowest rows) (min t (PressureRow.highest rows))

/-- The rows that stand first by their distance are the nearest. -/
theorem isNearest_take_mergeSort {rows : List (PressureRow ℝ)} (table : PressureRow.IsTable rows)
    {count : ℕ} (enough : count ≤ rows.length) {centre : ℝ}
    {le : PressureRow ℝ → PressureRow ℝ → Bool}
    (byDistance : ∀ r s, le r s = true ↔ |r.temperature - centre| ≤ |s.temperature - centre|) :
    IsNearest rows centre count ((rows.mergeSort le).take count) where
  length := by simpa using enough
  subperm := (List.take_sublist _ _).subperm.trans (List.mergeSort_perm _ _).subperm
  nearer _ _ _ _ hr hs picked left :=
    have distinct := List.Nodup.of_map _ table.nodup_temperatures
    lt_of_mem_take_mergeSort byDistance distinct hr hs picked left

/-- The fit picks the rows in its window around the temperature, moved into the range of the table,
or the nearest rows. -/
theorem isSelection_pick {f : LocalFit ℝ} (table : PressureRow.IsTable f.rows)
    (possible : f.minPoints ≤ f.rows.length) (t : ℝ) :
    IsSelection f.rows f.window f.minPoints (centre f.rows t) (f.pick t) := by
  have moved : clamp t (PressureRow.lowest f.rows) (PressureRow.highest f.rows) =
      centre f.rows t := clamp_real table.lowest_le_highest
  have near : (f.rows.filter fun r => decide (distance (centre f.rows t) r ≤ f.window)) =
      within f.rows f.window (centre f.rows t) := by
    simp only [within, distance, magnitude_real]
  simp only [pick, moved, near]
  split
  · rename_i few
    have byDistance (r s : PressureRow ℝ) :
        (!decide (distance (centre f.rows t) s < distance (centre f.rows t) r)) = true ↔
          |r.temperature - centre f.rows t| ≤ |s.temperature - centre f.rows t| := by
      simp [distance]
    have nearest := isNearest_take_mergeSort table possible byDistance
    exact {
      enough := nearest.length.ge
      all := fun enough => absurd enough (not_le.mpr few)
      nearest := fun _ => nearest }
  · rename_i several
    exact {
      enough := not_lt.mp several
      all := fun _ => rfl
      nearest := fun few => absurd few several }

theorem IsSelection.subperm {rows picked : List (PressureRow ℝ)} {window centre : ℝ} {count : ℕ}
    (selection : IsSelection rows window count centre picked) : picked.Subperm rows := by
  rcases le_or_gt count (within rows window centre).length with enough | few
  · rw [selection.all enough]
    exact List.filter_sublist.subperm
  · exact (selection.nearest few).subperm

/-! ## The fit -/

/-- What a fit gives at a temperature: a selection of rows, the only law with the least squares over
them, and the law of the table if it has one. -/
structure IsFitAt (rows : List (PressureRow ℝ)) (window : ℝ) (minPoints : ℕ) (f : LocalFit ℝ)
    (t : ℝ) : Prop where
  selection : IsSelection rows window minPoints (centre rows t) (f.pick t)
  spread_pos : 0 < spread (f.pick t)
  /-- The divisor of the slope is the spread, and its guard is not used. -/
  coefficients : f.coefficients t = {
    a := meanLog (f.pick t)
      - covariation (f.pick t) / spread (f.pick t) * meanInverse (f.pick t)
    b := -(covariation (f.pick t) / spread (f.pick t)) }
  least : ∀ c, squares (f.pick t) (f.coefficients t) ≤ squares (f.pick t) c
  only : ∀ c, squares (f.pick t) c ≤ squares (f.pick t) (f.coefficients t) → c = f.coefficients t
  recovers : ∀ c : ClausiusCoefficients ℝ,
    (∀ r ∈ rows, r.log10Pressure = c.log10Pressure r.temperature) →
      f.coefficients t = c ∧ (PressureLaw.localFit f).log10Pressure t = c.a - c.b / t

/-- **The local fit.** Every fit that is accepted picks at every temperature enough rows for a line,
those in its window or the nearest, and its coefficients are the only ones with the least squares
over them. If all rows of the table lie on one law, then it is this law. -/
theorem fits_of_accepted {rows : List (PressureRow ℝ)} {window : ℝ} {minPoints : ℕ}
    {f : LocalFit ℝ} (made : LocalFit.of rows window minPoints = .ok f) (t : ℝ) :
    IsFitAt rows window minPoints f t := by
  simp only [LocalFit.of, bind_eq_ok_iff, require_eq_ok_iff, exists_const, pure, Except.pure,
    Except.ok.injEq] at made
  obtain ⟨points, possible, _, _, checked, rfl⟩ := made
  have table := PressureRow.checkRows_isOk_iff.mp ⟨_, checked⟩
  have selection := isSelection_pick (f := { rows, window, minPoints }) table possible t
  have varies := table.varies selection.subperm (points.trans selection.enough)
  constructor
  case selection => exact selection
  case spread_pos => exact varies.spread_pos
  case coefficients => exact leastSquares_eq varies.spread_pos
  case least => exact varies.squares_le
  case only => exact fun c few => varies.eq_leastSquares few
  case recovers =>
    intro c law
    have fitted : coefficients { rows, window, minPoints } t = c :=
      varies.leastSquares_of_law fun r hr => law r (selection.subperm.subset hr)
    refine ⟨fitted, ?_⟩
    rw [PressureLaw.log10Pressure, fitted, ClausiusCoefficients.log10Pressure]

/-- Four rows of one law and a window that holds too few of them: at 1000 K, far below the table,
the fit to the nearest three gives the law and its pressure of 0.1 mPa. -/
theorem fits_of_accepted_law :
    let law : ClausiusCoefficients ℝ := { a := 13, b := 17000 }
    let rows := [1500, 1600, 1800, 2100].map fun t : ℝ =>
      ({ temperature := t, log10Pressure := law.log10Pressure t } : PressureRow ℝ)
    ∃ f, LocalFit.of rows 50 3 = .ok f ∧ IsFitAt rows 50 3 f 1000 ∧
      f.coefficients 1000 = law ∧ (PressureLaw.localFit f).log10Pressure 1000 = -4 := by
  intro law rows
  have made : LocalFit.of rows 50 3 = .ok { rows, window := 50, minPoints := 3 } := by
    simp [LocalFit.of, PressureRow.checkRows, rows, Table.descends]
    norm_num
  have fit := fits_of_accepted made 1000
  obtain ⟨coefficients, pressure⟩ := fit.recovers law (by simp [rows])
  refine ⟨_, made, fit, coefficients, ?_⟩
  rw [pressure]
  norm_num [law]

end LocalFit
end DebrisDisk
