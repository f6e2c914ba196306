import DebrisDisk.Proofs.Exact.Bins
import DebrisDisk.Proofs.Exact.Grinding
import DebrisDisk.Proofs.Exact.PowerLaw

/-!
# Where the fragments go

A parent grinds into a power law of fragments up to its lower edge. Let the share below an edge be
the part of these fragments that is smaller than the edge or the floor. What a smaller bin receives
is then the difference of two neighbouring shares, so what a parent places in the bins from some
edge on is what it loses times the rest of the share below that edge. At the lowest edge this gives
the mass lost from the grid; at any other it bounds what stays above.

## Main results

* `Parent.gain_eq`: what a bin receives from one parent.
* `Parent.destroyed_outcome`, `Parent.lost_outcome`: the sums a pass reports.
* `CollisionSettings.sum_transfer`: what a parent places above an edge.
* `CollisionSettings.massAt_grind`, `sum_massAt_grind_le`: the masses after a pass, and that none
  moves up.
* `CollisionSettings.grind_redistributes`: the masses after a pass and the mass it reports.
-/

namespace DebrisDisk
open Scalar

/-! ## Shares of the fragments -/

/-- The share of the fragments up to the size `top` that is smaller than `s` or the floor, when
their mass grows with the power `k` of the size. -/
noncomputable def fragmentsBelow (k floor top s : ℝ) : ℝ := min 1 ((max s floor / top) ^ k)

section Shares
variable {k floor top s : ℝ} (exponent : 0 < k) (positive : 0 < top) (nonneg : 0 ≤ s)
include exponent positive nonneg

omit exponent in
theorem fragmentsBelow_mem : fragmentsBelow k floor top s ∈ Set.Icc (0 : ℝ) 1 :=
  ⟨le_min zero_le_one
    (Real.rpow_nonneg (div_nonneg (nonneg.trans (le_max_left s floor)) positive.le) _),
    min_le_left _ _⟩

theorem fragmentsBelow_of_le (inside : max s floor ≤ top) :
    fragmentsBelow k floor top s = max s floor ^ k / top ^ k := by
  have bottom : 0 ≤ max s floor := nonneg.trans (le_max_left s floor)
  rw [fragmentsBelow, min_eq_right, Real.div_rpow bottom positive.le]
  exact Real.rpow_le_one (div_nonneg bottom positive.le) (div_le_one_of_le₀ inside positive.le)
    exponent.le

omit nonneg in
theorem fragmentsBelow_of_ge (outside : top ≤ max s floor) : fragmentsBelow k floor top s = 1 :=
  min_eq_left (Real.one_le_rpow ((one_le_div positive).mpr outside) exponent.le)

/-- The share of the fragments below a size is that of the continuous distribution. -/
theorem fragmentsBelow_eq_integral : fragmentsBelow k floor top s =
    (∫ x in (0 : ℝ)..min (max s floor) top, x ^ (k - 1)) / ∫ x in (0 : ℝ)..top, x ^ (k - 1) := by
  have integral (y : ℝ) : ∫ x in (0 : ℝ)..y, x ^ (k - 1) = y ^ k / k := by
    rw [integral_rpow (.inl (by linarith)), sub_add_cancel, Real.zero_rpow exponent.ne', sub_zero]
  rw [integral, integral, div_div_div_cancel_right₀ exponent.ne']
  rcases le_total (max s floor) top with inside | outside
  · rw [fragmentsBelow_of_le exponent positive nonneg inside, min_eq_left inside]
  · rw [fragmentsBelow_of_ge exponent positive outside, min_eq_right outside,
      div_self (Real.rpow_pos_of_pos positive _).ne']

end Shares

namespace Parent

/-! ## What a bin receives -/

section Gain
variable {q floor : ℝ} (steep : q ≤ 4 - 1e-12) {p child : Parent ℝ}
include steep

theorem fragmentNorm?_eq (positive : 0 < p.lower) :
    p.fragmentNorm? q floor = if floor < p.lower then some (cumulative q p.lower) else none := by
  have four : (4.0 : ℝ) = 4 := by norm_num
  have exponent : 1e-12 ≤ 4 - q := by linarith
  have exponentPositive : 0 < 4 - q := lt_of_lt_of_le (by norm_num) exponent
  have regular : ¬ |4 - q| < 1e-12 := by rwa [abs_of_pos exponentPositive, not_lt]
  have integral : powerLawIntegral 0 p.lower q = cumulative q p.lower := by
    simp only [powerLawIntegral, ln_real, pow_real, magnitude_real, four,
      if_neg (not_le.mpr positive), if_neg regular, Real.zero_rpow exponentPositive.ne', sub_zero,
      cumulative]
  have some : 0 < cumulative q p.lower := div_pos (Real.rpow_pos_of_pos positive _) exponentPositive
  simp only [fragmentNorm?, integral, some, isFinite_real, true_and]

/-- The part of a bin above the floor in the power law of the fragments. -/
theorem powerLawIntegral_eq_div {lo hi : ℝ} (positive : 0 < lo) (ascending : lo ≤ hi) :
    powerLawIntegral lo hi q = (hi ^ (4 - q) - lo ^ (4 - q)) / (4 - q) := by
  have exponent : 1e-12 ≤ |4 - q| := (by linarith : 1e-12 ≤ 4 - q).trans (le_abs_self _)
  rw [SizeBins.powerLawIntegral_eq_sub q positive ascending]
  simp only [SizeBins.powerLawPrimitive, if_neg (not_lt.mpr exponent), sub_div]

/-- The mass that a smaller bin receives from a parent. -/
theorem gain_eq_ite (parent : 0 < p.lower) (positive : 0 < child.lower)
    (ascending : child.lower < child.upper) :
    p.gain q floor child = if floor < p.lower ∧ floor < child.upper then
      p.loss * ((child.upper ^ (4 - q) - max child.lower floor ^ (4 - q)) / p.lower ^ (4 - q))
      else 0 := by
  by_cases ground : p.isGround = true
  · simp only [gain, gain?, ground, fragmentNorm?_eq steep parent, loss, if_true, fmax_real]
    by_cases reaches : floor < p.lower
    · simp only [if_pos reaches]
      rcases le_or_gt child.upper floor with below | above
      · rw [SizeBins.powerLawIntegral_of_le q (le_max_of_le_right below), zero_div,
          if_neg (lt_irrefl 0), if_neg fun both => both.2.not_ge below, Option.getD_none]
      · have bottom : 0 < max child.lower floor := lt_max_of_lt_left positive
        have exponent : 0 < 4 - q := by linarith
        have whole : 0 < p.lower ^ (4 - q) := Real.rpow_pos_of_pos parent _
        have part := SizeBins.powerLawIntegral_pos q bottom (max_lt ascending above)
        have norm : 0 < cumulative q p.lower := div_pos whole exponent
        rw [if_pos (div_pos part norm), if_pos ⟨reaches, above⟩, Option.getD_some,
          powerLawIntegral_eq_div steep bottom (max_le ascending.le above.le), cumulative,
          div_div_div_cancel_right₀ exponent.ne']
    · simp [reaches]
  · simp [gain_of_not_isGround ground, loss, ground]

/-- A smaller bin receives the part of the fragments between its edges. -/
theorem gain_eq (positive : 0 < child.lower) (ascending : child.lower < child.upper)
    (below : child.upper ≤ p.lower) :
    p.gain q floor child = p.loss * (fragmentsBelow (4 - q) floor p.lower child.upper -
      fragmentsBelow (4 - q) floor p.lower child.lower) := by
  have exponent : 0 < 4 - q := by linarith
  have parent : 0 < p.lower := positive.trans (ascending.trans_le below)
  rw [gain_eq_ite steep parent positive ascending]
  split_ifs with reaches
  · have upper : max child.upper floor ≤ p.lower := max_le below reaches.1.le
    have lower : max child.lower floor ≤ p.lower :=
      max_le (ascending.le.trans below) reaches.1.le
    rw [fragmentsBelow_of_le exponent parent (positive.trans ascending).le upper,
      fragmentsBelow_of_le exponent parent positive.le lower, max_eq_left reaches.2.le, sub_div]
  · have same : fragmentsBelow (4 - q) floor p.lower child.upper =
        fragmentsBelow (4 - q) floor p.lower child.lower := by
      rcases not_and_or.mp reaches with above | cut
      · rw [fragmentsBelow_of_ge exponent parent (le_max_of_le_right (not_lt.mp above)),
          fragmentsBelow_of_ge exponent parent (le_max_of_le_right (not_lt.mp above))]
      · rw [not_lt] at cut
        rw [fragmentsBelow, fragmentsBelow, max_eq_right cut,
          max_eq_right (ascending.le.trans cut)]
    rw [same, sub_self, mul_zero]

end Gain

/-! ## The sums of a pass -/

theorem outcome_step (q floor : ℝ) (o : GrindOutcome ℝ) (smaller : List (Parent ℝ)) (p : Parent ℝ) :
    (if p.isGround then
      { destroyed := o.destroyed + p.destroyed
        lost := o.lost + (p.destroyed - p.placed q floor smaller) }
      else o : GrindOutcome ℝ) =
    { destroyed := o.destroyed + p.loss
      lost := o.lost + (p.loss - p.placed q floor smaller) } := by
  by_cases ground : p.isGround = true
  · simp [ground, loss]
  · have nowhere : p.placed q floor smaller = 0 := by
      simp [placed_eq, gain_of_not_isGround ground]
    simp [ground, loss, nowhere]

/-- A pass reports as destroyed what the parents lose together. -/
theorem destroyed_outcome (q floor : ℝ) (o : GrindOutcome ℝ) (smaller rest : List (Parent ℝ)) :
    (outcome q floor o smaller rest).destroyed = o.destroyed + (rest.map loss).sum := by
  induction rest generalizing o smaller with
  | nil => simp [outcome]
  | cons p rest ih =>
    rw [outcome, outcome_step, ih, List.map_cons, List.sum_cons]
    ring

/-- A pass reports as lost what the parents lose and do not place in the bins before them. -/
theorem lost_outcome (q floor : ℝ) (o : GrindOutcome ℝ) (smaller rest : List (Parent ℝ))
    {g : ℕ → ℝ} (entry : ∀ (i : ℕ) p, rest[i]? = some p →
      p.loss - p.placed q floor (smaller ++ rest.take i) = g i) :
    (outcome q floor o smaller rest).lost =
      o.lost + ∑ i ∈ Finset.range rest.length, g i := by
  induction rest generalizing o smaller g with
  | nil => simp [outcome]
  | cons p rest ih =>
    have first : p.loss - p.placed q floor smaller = g 0 := by simpa using entry 0 p rfl
    rw [outcome, outcome_step, ih _ _ (g := fun i => g (i + 1)) fun i r hr => by
      simpa using entry (i + 1) r hr, first, List.length_cons, Finset.sum_range_succ']
    ring

end Parent

namespace CollisionSettings
variable {s : CollisionSettings ℝ} {b : SizeBins ℝ} {floor fraction : ℝ}

/-- The mass in kilograms that a pass destroys in a bin. -/
noncomputable def destroyedAt (b : SizeBins ℝ) (floor fraction : ℝ) (i : ℕ) : ℝ :=
  b.massAt i * activeWeight (b.edgeAt i) (b.edgeAt (i + 1)) floor * fraction

/-- The mass in kilograms that the bin `i` sends to the smaller bin `j`. -/
noncomputable def transfer (k : ℝ) (b : SizeBins ℝ) (floor fraction : ℝ) (i j : ℕ) : ℝ :=
  destroyedAt b floor fraction i * (fragmentsBelow k floor (b.edgeAt i) (b.edgeAt (j + 1)) -
    fragmentsBelow k floor (b.edgeAt i) (b.edgeAt j))

section Pass
variable (grid : b.IsGrid)
include grid

/-- The parents are the bins with what a pass destroys in them. -/
theorem getElem?_parents {i : ℕ} {p : Parent ℝ} (h : (parents b floor fraction)[i]? = some p) :
    i < b.size ∧ p =
      { lower := b.edgeAt i, upper := b.edgeAt (i + 1)
        destroyed := destroyedAt b floor fraction i } := by
  obtain ⟨m, span, held, hspan, rfl⟩ := getElem?_parents_eq_some.mp h
  have inside : i < b.size := (List.getElem?_eq_some_iff.mp held).1
  have edges := (grid.getElem?_spans inside).symm.trans hspan
  simp only [Option.some.injEq] at edges
  subst edges
  exact ⟨inside, by simp [destroyedAt, SizeBins.massAt_of_getElem? held]⟩

theorem length_parents : (parents b floor fraction).length = b.size := by
  simp [parents, grid.shaped.spans, SizeBins.size]

variable (nonneg : b.IsNonneg) (positive : 0 ≤ fraction)
include nonneg positive

theorem destroyedAt_nonneg {i : ℕ} (inside : i < b.size) : 0 ≤ destroyedAt b floor fraction i := by
  have mass := nonneg _ (List.mem_of_getElem? (SizeBins.IsGrid.getElem?_masses inside))
  have weight := SizeBins.activeWeight_mem (b.edgeAt (i + 1)) floor (grid.edgeAt_width inside).1
  exact mul_nonneg (mul_nonneg mass weight.1) positive

theorem loss_parent {i : ℕ} {p : Parent ℝ} (h : (parents b floor fraction)[i]? = some p) :
    p.loss = destroyedAt b floor fraction i := by
  obtain ⟨inside, rfl⟩ := getElem?_parents grid h
  exact Parent.loss_eq (destroyedAt_nonneg grid nonneg positive inside)

/-- What a bin receives from a larger one is the transfer between them. -/
theorem gain_parent {q : ℝ} (steep : q ≤ 4 - 1e-12) {i j : ℕ} {p child : Parent ℝ}
    (larger : (parents b floor fraction)[i]? = some p)
    (smaller : (parents b floor fraction)[j]? = some child) (before : j < i) :
    p.gain q floor child = transfer (4 - q) b floor fraction i j := by
  have loss := loss_parent grid nonneg positive larger
  obtain ⟨inside, rfl⟩ := getElem?_parents grid larger
  obtain ⟨inside', rfl⟩ := getElem?_parents grid smaller
  have width := grid.edgeAt_width inside'
  rw [Parent.gain_eq steep width.1 width.2 (grid.edgeAt_mono before inside.le), loss, transfer]

end Pass

/-- A parent places the rest of the share below an edge in the bins from there on. -/
theorem sum_transfer {k : ℝ} (grid : b.IsGrid) (exponent : 0 < k) {i j : ℕ} (ordered : j ≤ i)
    (inside : i < b.size) :
    ∑ l ∈ Finset.Ico j i, transfer k b floor fraction i l =
      destroyedAt b floor fraction i *
        (1 - fragmentsBelow k floor (b.edgeAt i) (b.edgeAt j)) := by
  have top : fragmentsBelow k floor (b.edgeAt i) (b.edgeAt i) = 1 :=
    fragmentsBelow_of_ge exponent (grid.edgeAt_width inside).1 (le_max_left _ _)
  simp only [transfer]
  rw [← Finset.mul_sum,
    Finset.sum_Ico_sub (fun l => fragmentsBelow k floor (b.edgeAt i) (b.edgeAt l)) ordered, top]

/-- Mass only moves to smaller bins: from any edge on, no pass adds any. -/
theorem sum_transfer_le {k : ℝ} (exponent : 0 < k) (grid : b.IsGrid) (nonneg : b.IsNonneg)
    (positive : 0 ≤ fraction) (j : ℕ) :
    ∑ l ∈ Finset.Ico j b.size, ∑ i ∈ Finset.Ico (l + 1) b.size, transfer k b floor fraction i l ≤
      ∑ i ∈ Finset.Ico j b.size, destroyedAt b floor fraction i := by
  rw [Finset.sum_Ico_Ico_comm' j b.size fun l i => transfer k b floor fraction i l]
  refine Finset.sum_le_sum fun i hi => ?_
  obtain ⟨ordered, inside⟩ := Finset.mem_Ico.mp hi
  have share : fragmentsBelow k floor (b.edgeAt i) (b.edgeAt j) ∈ Set.Icc (0 : ℝ) 1 :=
    fragmentsBelow_mem (grid.edgeAt_width inside).1
      (grid.edgeAt_width (ordered.trans_lt inside)).1.le
  rw [sum_transfer grid exponent ordered inside]
  exact mul_le_of_le_one_right (destroyedAt_nonneg grid nonneg positive inside)
    (sub_le_self 1 share.1)

section Cascade
variable {q : ℝ} (steep : q ≤ 4 - 1e-12) (grid : b.IsGrid) (nonneg : b.IsNonneg)
  (positive : 0 ≤ fraction)
include steep grid nonneg positive

/-- The mass that a larger bin sends to a smaller one, from the edges. -/
theorem transfer_eq_ite {i j : ℕ} (inside : i < b.size) (before : j < i) :
    transfer (4 - q) b floor fraction i j = if floor < b.edgeAt i ∧ floor < b.edgeAt (j + 1) then
      destroyedAt b floor fraction i *
        (b.edgeAt (j + 1) ^ (4 - q) - max (b.edgeAt j) floor ^ (4 - q)) / b.edgeAt i ^ (4 - q)
      else 0 := by
  have counted : (parents b floor fraction).length = b.size := length_parents grid
  obtain ⟨p, hp⟩ : ∃ p, (parents b floor fraction)[i]? = some p :=
    ⟨_, List.getElem?_eq_getElem (counted.symm ▸ inside)⟩
  obtain ⟨child, hchild⟩ : ∃ child, (parents b floor fraction)[j]? = some child :=
    ⟨_, List.getElem?_eq_getElem (counted.symm ▸ before.trans inside)⟩
  have loss := loss_parent grid nonneg positive hp
  rw [← gain_parent grid nonneg positive steep hp hchild before]
  obtain ⟨_, rfl⟩ := getElem?_parents grid hp
  obtain ⟨_, rfl⟩ := getElem?_parents grid hchild
  have width := grid.edgeAt_width (before.trans inside)
  rw [Parent.gain_eq_ite steep (grid.edgeAt_width inside).1 width.1 width.2, loss]
  simp only [mul_div_assoc]

/-- What a bin receives from all larger ones, from the edges. -/
theorem sum_transfer_eq_filter (j : ℕ) :
    ∑ i ∈ Finset.Ico (j + 1) b.size, transfer (4 - q) b floor fraction i j =
      ∑ i ∈ Finset.Ioo j b.size with floor < b.edgeAt i ∧ floor < b.edgeAt (j + 1),
        destroyedAt b floor fraction i *
          (b.edgeAt (j + 1) ^ (4 - q) - max (b.edgeAt j) floor ^ (4 - q)) /
            b.edgeAt i ^ (4 - q) := by
  have larger : Finset.Ioo j b.size = Finset.Ico (j + 1) b.size := by
    ext i
    simp only [Finset.mem_Ioo, Finset.mem_Ico, Nat.succ_le_iff]
  rw [larger, Finset.sum_filter]
  refine Finset.sum_congr rfl fun i hi => ?_
  obtain ⟨before, inside⟩ := Finset.mem_Ico.mp hi
  exact transfer_eq_ite steep grid nonneg positive inside before

/-- The change of a bin in a pass. -/
theorem getElem?_changes_parents {j : ℕ} (inside : j < b.size) :
    (Parent.changes q floor (parents b floor fraction))[j]? =
      some (∑ i ∈ Finset.Ico (j + 1) b.size, transfer (4 - q) b floor fraction i j -
        destroyedAt b floor fraction j) := by
  have counted : (parents b floor fraction).length = b.size := length_parents grid
  obtain ⟨child, hchild⟩ : ∃ child, (parents b floor fraction)[j]? = some child :=
    ⟨_, List.getElem?_eq_getElem (counted.symm ▸ inside)⟩
  have gains := sum_map_drop_eq_sum_Ico (l := parents b floor fraction) fun i p before hp =>
    gain_parent grid nonneg positive steep hp hchild before
  rw [counted] at gains
  rw [Parent.getElem?_changes, hchild, Option.map_some, Parent.change_eq, gains,
    loss_parent grid nonneg positive hchild]

/-- What a parent places in the bins before it. -/
theorem placed_parent {i : ℕ} {p : Parent ℝ} (h : (parents b floor fraction)[i]? = some p) :
    p.placed q floor ((parents b floor fraction).take i) =
      ∑ l ∈ Finset.range i, transfer (4 - q) b floor fraction i l := by
  have counted : (parents b floor fraction).length = b.size := length_parents grid
  have inside : i < b.size := (getElem?_parents grid h).1
  rw [Parent.placed_eq]
  exact sum_map_take_eq_sum_range (counted.symm ▸ inside.le) fun l child before hchild =>
    gain_parent grid nonneg positive steep h hchild before

/-- The sums that a pass reports. -/
theorem outcome_parents :
    Parent.outcome q floor ⟨0, 0⟩ [] (parents b floor fraction) = {
      destroyed := ∑ i ∈ Finset.range b.size, destroyedAt b floor fraction i
      lost := ∑ i ∈ Finset.range b.size, destroyedAt b floor fraction i *
        fragmentsBelow (4 - q) floor (b.edgeAt i) (b.edgeAt 0) } := by
  have exponent : 0 < 4 - q := by linarith
  have counted : (parents b floor fraction).length = b.size := length_parents grid
  have destroyed : ((parents b floor fraction).map Parent.loss).sum =
      ∑ i ∈ Finset.range b.size, destroyedAt b floor fraction i := by
    rw [← counted]
    exact sum_map_eq_sum_range fun i p hp => loss_parent grid nonneg positive hp
  have lost : ∀ (i : ℕ) p, (parents b floor fraction)[i]? = some p →
      p.loss - p.placed q floor ([] ++ (parents b floor fraction).take i) =
        destroyedAt b floor fraction i *
          fragmentsBelow (4 - q) floor (b.edgeAt i) (b.edgeAt 0) := by
    intro i p hp
    have inside : i < b.size := (getElem?_parents grid hp).1
    rw [List.nil_append, placed_parent steep grid nonneg positive hp,
      loss_parent grid nonneg positive hp, Finset.range_eq_Ico,
      sum_transfer grid exponent i.zero_le inside]
    ring
  have reported := Parent.destroyed_outcome q floor ⟨0, 0⟩ [] (parents b floor fraction)
  have missing := Parent.lost_outcome q floor ⟨0, 0⟩ [] (parents b floor fraction) lost
  rw [zero_add, destroyed] at reported
  rw [zero_add, counted] at missing
  rw [← reported, ← missing]

end Cascade

/-! ## A pass over the bins -/

theorem getElem?_adjust {held changes : List ℝ} {j : ℕ} {m change : ℝ} (here : held[j]? = some m)
    (changed : changes[j]? = some change) :
    (adjust held changes)[j]? = some (adjusted m change) := by
  induction held generalizing changes j with
  | nil => simp at here
  | cons m' ms ih =>
    rcases changes with _ | ⟨change', rest⟩
    · simp at changed
    · cases j with
      | zero => simp_all [adjust]
      | succ j => simpa [adjust] using ih (by simpa using here) (by simpa using changed)

section Grind
variable (enabled : s.enabled = true) (steep : s.slope ≤ 4 - 1e-12) (grid : b.IsGrid)
  (nonneg : b.IsNonneg) (tColl : Timescale ℝ) (dt : Time ℝ) (floor : ℝ)
include enabled steep grid nonneg

/-- What a bin holds after a pass. -/
theorem massAt_grind {j : ℕ} (inside : j < b.size) :
    (s.grind b tColl dt floor).1.massAt j =
      b.massAt j - destroyedAt b floor (tColl.decayFraction dt.seconds) j +
        ∑ i ∈ Finset.Ico (j + 1) b.size,
          transfer (4 - s.slope) b floor (tColl.decayFraction dt.seconds) i j := by
  have shallow : s.slope < 4 := by linarith
  have ground := grind_of_fine fun d hd =>
    (draws_grind_covered grid nonneg shallow tColl dt floor d hd).held_nonneg
  have positive := (tColl.decayFraction_mem dt.seconds).1
  have held := SizeBins.IsGrid.getElem?_masses inside
  by_cases idle : tColl.decayFraction dt.seconds ≤ 0
  · have zero : tColl.decayFraction dt.seconds = 0 := le_antisymm idle positive
    have still : s.changes b tColl dt floor = [] := if_pos (.inr idle)
    rw [ground, still, adjust_nil, zero]
    simp [SizeBins.massAt, transfer, destroyedAt]
  · have changes : s.changes b tColl dt floor =
        Parent.changes s.slope floor (parents b floor (tColl.decayFraction dt.seconds)) :=
      if_neg (by simpa [enabled] using idle)
    have change : (s.changes b tColl dt floor)[j]? = some _ :=
      changes ▸ getElem?_changes_parents steep grid nonneg positive inside
    have covered := change_covered grid nonneg shallow held change
    have left := getElem?_adjust held change
    rw [adjusted_of_covered covered] at left
    rw [ground, SizeBins.massAt_of_getElem? left]
    ring

/-- A bin wholly below the floor keeps its mass. -/
theorem massAt_grind_of_below {j : ℕ} (inside : j < b.size) (below : b.edgeAt (j + 1) ≤ floor) :
    (s.grind b tColl dt floor).1.massAt j = b.massAt j := by
  have positive := (tColl.decayFraction_mem dt.seconds).1
  have idle : destroyedAt b floor (tColl.decayFraction dt.seconds) j = 0 := by
    simp [destroyedAt, activeWeight, below]
  have nothing : (Finset.Ioo j b.size).filter
      (fun i => floor < b.edgeAt i ∧ floor < b.edgeAt (j + 1)) = ∅ :=
    Finset.filter_eq_empty_iff.mpr fun i _ both => both.2.not_ge below
  rw [massAt_grind enabled steep grid nonneg tColl dt floor inside,
    sum_transfer_eq_filter steep grid nonneg positive, idle, nothing, Finset.sum_empty, sub_zero,
    add_zero]

/-- From any bin on there is no more mass after a pass than before. -/
theorem sum_massAt_grind_le (j : ℕ) :
    ∑ i ∈ Finset.Ico j b.size, (s.grind b tColl dt floor).1.massAt i ≤
      ∑ i ∈ Finset.Ico j b.size, b.massAt i := by
  have positive := (tColl.decayFraction_mem dt.seconds).1
  have exponent : 0 < 4 - s.slope := by linarith
  set fraction := tColl.decayFraction dt.seconds with hfraction
  have placed : ∑ l ∈ Finset.Ico j b.size, ∑ i ∈ Finset.Ico (l + 1) b.size,
      transfer (4 - s.slope) b floor fraction i l ≤ _ :=
    sum_transfer_le exponent grid nonneg positive j
  have each : ∑ i ∈ Finset.Ico j b.size, (s.grind b tColl dt floor).1.massAt i =
      ∑ i ∈ Finset.Ico j b.size, (b.massAt i - destroyedAt b floor fraction i +
        ∑ l ∈ Finset.Ico (i + 1) b.size, transfer (4 - s.slope) b floor fraction l i) :=
    Finset.sum_congr rfl fun i hi =>
      massAt_grind enabled steep grid nonneg tColl dt floor (Finset.mem_Ico.mp hi).2
  rw [each, Finset.sum_add_distrib, Finset.sum_sub_distrib]
  linarith

/-- What a pass reports. -/
theorem moved_eq :
    s.moved b tColl dt floor = {
      destroyed := ∑ i ∈ Finset.range b.size,
        destroyedAt b floor (tColl.decayFraction dt.seconds) i
      lost := ∑ i ∈ Finset.range b.size,
        destroyedAt b floor (tColl.decayFraction dt.seconds) i *
          fragmentsBelow (4 - s.slope) floor (b.edgeAt i) (b.edgeAt 0) } := by
  have positive := (tColl.decayFraction_mem dt.seconds).1
  by_cases idle : tColl.decayFraction dt.seconds ≤ 0
  · have zero : tColl.decayFraction dt.seconds = 0 := le_antisymm idle positive
    simp [moved, zero, destroyedAt]
  · rw [← outcome_parents steep grid nonneg positive, moved, if_neg (by simpa [enabled] using idle)]

end Grind

/-! ## What a pass does -/

/-- What a pass does to the bins when it grinds a fraction of the active mass of each. -/
structure Redistributes (s : CollisionSettings ℝ) (b after : SizeBins ℝ) (fraction floor : ℝ)
    (o : GrindOutcome ℝ) : Prop where
  grid : b.SameGrid after
  /-- A bin loses what is destroyed in it, and receives from each larger bin above the floor the
  fragments that fall between its edges and above the floor. -/
  bins : ∀ j < b.size, after.massAt j = b.massAt j - destroyedAt b floor fraction j +
    ∑ i ∈ Finset.Ioo j b.size with floor < b.edgeAt i ∧ floor < b.edgeAt (j + 1),
      destroyedAt b floor fraction i *
        (b.edgeAt (j + 1) ^ (4 - s.slope) - max (b.edgeAt j) floor ^ (4 - s.slope)) /
          b.edgeAt i ^ (4 - s.slope)
  destroyed : o.destroyed = ∑ i ∈ Finset.range b.size, destroyedAt b floor fraction i
  lost : o.lost = ∑ i ∈ Finset.range b.size, destroyedAt b floor fraction i *
    min 1 ((max (b.edgeAt 0) floor / b.edgeAt i) ^ (4 - s.slope))
  /-- The share that is lost is the part of the fragments below the floor and the grid. -/
  share : ∀ i < b.size, min 1 ((max (b.edgeAt 0) floor / b.edgeAt i) ^ (4 - s.slope)) =
    (∫ x in (0 : ℝ)..min (max (b.edgeAt 0) floor) (b.edgeAt i), x ^ (3 - s.slope)) /
      ∫ x in (0 : ℝ)..b.edgeAt i, x ^ (3 - s.slope)
  lost_nonneg : 0 ≤ o.lost
  lost_le : o.lost ≤ o.destroyed
  closes : after.totalMass.kilograms + o.lost = b.totalMass.kilograms
  spares : ∀ j < b.size, b.edgeAt (j + 1) ≤ floor → after.massAt j = b.massAt j
  /-- No mass moves to a larger bin: from any bin on there is no more than before. -/
  downward : ∀ j, ∑ i ∈ Finset.Ico j b.size, after.massAt i ≤
    ∑ i ∈ Finset.Ico j b.size, b.massAt i

/-- **A pass redistributes the mass it grinds: every fragment above the floor lands in its bin, and
the rest is reported as lost.** -/
theorem grind_redistributes (enabled : s.enabled = true) (steep : s.slope ≤ 4 - 1e-12)
    (grid : b.IsGrid) (nonneg : b.IsNonneg) (tColl : Timescale ℝ) (dt : Time ℝ) (floor : ℝ) :
    ∃ after o, s.grind b tColl dt floor = (after, some o) ∧
      s.Redistributes b after (tColl.decayFraction dt.seconds) floor o := by
  have shallow : s.slope < 4 := by linarith
  have ground := grind_of_fine fun d hd =>
    (draws_grind_covered grid nonneg shallow tColl dt floor d hd).held_nonneg
  have positive := (tColl.decayFraction_mem dt.seconds).1
  have moved := moved_eq enabled steep grid nonneg tColl dt floor
  obtain ⟨_, o, reported, lostNonneg, closes⟩ := grind_exact grid nonneg shallow tColl dt floor
  have outcome : o = s.moved b tColl dt floor := by
    rw [ground] at reported
    exact (Option.some.inj reported).symm
  have sameGrid := s.sameGrid_grind b tColl dt floor
  set after := (s.grind b tColl dt floor).1 with hafter
  set fraction := tColl.decayFraction dt.seconds with hfraction
  refine ⟨after, o, Prod.ext rfl reported, ?_⟩
  constructor
  case grid => exact sameGrid
  case bins =>
    intro j inside
    rw [hafter, massAt_grind enabled steep grid nonneg tColl dt floor inside,
      sum_transfer_eq_filter steep grid nonneg positive]
  case destroyed => rw [outcome, moved]
  case lost =>
    rw [outcome, moved]
    rfl
  case share =>
    intro i inside
    have power : 3 - s.slope = 4 - s.slope - 1 := by ring
    rw [power]
    exact fragmentsBelow_eq_integral (sub_pos.mpr shallow) (grid.edgeAt_width inside).1
      (grid.edgeAt_width (i.zero_le.trans_lt inside)).1.le
  case lost_nonneg => exact lostNonneg
  case lost_le =>
    rw [outcome, moved]
    dsimp only
    refine Finset.sum_le_sum fun i hi => ?_
    have some : 0 ≤ destroyedAt b floor fraction i :=
      destroyedAt_nonneg grid nonneg positive (Finset.mem_range.mp hi)
    exact mul_le_of_le_one_right some (min_le_left _ _)
  case closes => simpa only [SizeBins.totalMass, sum_real] using closes
  case spares =>
    exact fun j inside below =>
      massAt_grind_of_below enabled steep grid nonneg tColl dt floor inside below
  case downward => exact sum_massAt_grind_le enabled steep grid nonneg tColl dt floor

/-- A kilogram of grains in forty bins, ground for a tenth of the time between collisions. -/
theorem exists_redistributes_of_cascade : ∃ b after : SizeBins ℝ, ∃ o : GrindOutcome ℝ,
    b.totalMass = ⟨1⟩ ∧ default.grind b (.finite 10) ⟨1⟩ 1e-7 = (after, some o) ∧
      default.Redistributes b after (Timescale.decayFraction 1 (.finite 10)) 1e-7 o := by
  obtain ⟨empty, spaced⟩ : ∃ b : SizeBins ℝ, SizeBins.logSpaced ⟨1e-7⟩ ⟨3⟩ 40 ⟨3000⟩ = .ok b :=
    SizeBins.exists_logSpaced (by norm_num) (by norm_num) (by norm_num) (by norm_num)
  obtain ⟨span, h⟩ := SizeBins.exists_span_of_logSpaced spaced
  have grid := (SizeBins.isGrid_logSpaced spaced).1
  have reaches : (⟨1e-7⟩ : Length ℝ).metres < empty.maxSize.metres := by
    rw [(SizeBins.ends_of_logSpaced spaced).2]
    norm_num
  obtain ⟨b, filled, total⟩ := grid.exists_withPowerLaw h ⟨1⟩ 3.5 reaches
  have positive : (0 : ℝ) ≤ (⟨1⟩ : Mass ℝ).kilograms := zero_le_one
  obtain ⟨after, o, ground, redistributes⟩ := grind_redistributes (s := default) rfl
    (by norm_num [default]) ((SizeBins.sameGrid_withPowerLaw grid.shaped filled).isGrid grid)
    (SizeBins.isNonneg_withPowerLaw grid positive filled) (.finite 10) ⟨1⟩ 1e-7
  exact ⟨b, after, o, total, ground, redistributes⟩

end CollisionSettings
end DebrisDisk
