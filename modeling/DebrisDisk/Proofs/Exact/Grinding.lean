import DebrisDisk.Proofs.Exact.Grid

/-!
# Grinding in exact arithmetic

A pass of grinding reports the mass that falls below the floor apart from the changes it makes to
the bins. Both are sums over the same pairs of a parent and a smaller bin, so they cancel:
`Parent.sum_changes_add_lost`.

The fragments that a parent places in smaller bins are no more than it loses, because the shares are
differences of one ascending function over bins that do not overlap. A bin loses at most what it
holds, so every change is covered.

## Main results

* `CollisionSettings.draws_grind_covered`: what a bin is asked for, it holds.
* `CollisionSettings.grind_exact`: a pass moves all it reports and leaves no negative mass.
-/

namespace DebrisDisk
open Scalar

namespace Parent

/-! ## Losses and gains -/

/-- What a bin loses as a parent. -/
noncomputable def loss (p : Parent ℝ) : ℝ := if p.isGround then p.destroyed else 0

/-- What a smaller bin receives from a parent. -/
noncomputable def gain (q floor : ℝ) (p child : Parent ℝ) : ℝ := (p.gain? q floor child).getD 0

theorem isGround_iff {p : Parent ℝ} : p.isGround = true ↔ 0 < p.destroyed := by
  simp [isGround]

theorem loss_eq {p : Parent ℝ} (nonneg : 0 ≤ p.destroyed) : p.loss = p.destroyed := by
  simp only [loss]
  split_ifs with ground
  · rfl
  · rw [isGround_iff, not_lt] at ground
    exact le_antisymm nonneg ground

theorem gain_of_not_isGround {q floor : ℝ} {p child : Parent ℝ} (idle : ¬ p.isGround = true) :
    p.gain q floor child = 0 := by
  simp [gain, gain?, idle]

private theorem foldl_add {β : Type} {f : ℝ → β → ℝ} {g : β → ℝ}
    (adds : ∀ acc x, f acc x = acc + g x) (acc : ℝ) (xs : List β) :
    xs.foldl f acc = acc + (xs.map g).sum := by
  induction xs generalizing acc with
  | nil => simp
  | cons x xs ih =>
    rw [List.foldl_cons, ih, adds, List.map_cons, List.sum_cons]
    ring

theorem change_eq (q floor : ℝ) (child : Parent ℝ) (larger : List (Parent ℝ)) :
    child.change q floor larger = (larger.map fun p => p.gain q floor child).sum - child.loss := by
  simp only [change]
  rw [foldl_add (g := fun p => p.gain q floor child)]
  · simp only [loss]
    split_ifs <;> ring
  · intro acc p
    simp only [gain]
    cases p.gain? q floor child <;> simp

theorem placed_eq (q floor : ℝ) (smaller : List (Parent ℝ)) (p : Parent ℝ) :
    p.placed q floor smaller = (smaller.map fun child => p.gain q floor child).sum := by
  simp only [placed]
  rw [foldl_add (g := fun child => p.gain q floor child), zero_add]
  intro acc child
  simp only [gain]
  cases p.gain? q floor child <;> simp

/-! ## The cascade closes -/

/-- The changes of a pass and the mass it reports as lost cancel, up to what the parents place in
bins that went before. -/
private theorem lost_add_sum_changes (q floor : ℝ) (o : GrindOutcome ℝ)
    (smaller rest : List (Parent ℝ)) :
    (outcome q floor o smaller rest).lost + (changes q floor rest).sum =
      o.lost - (rest.map (placed q floor smaller)).sum := by
  induction rest generalizing o smaller with
  | nil => simp [outcome, changes]
  | cons p rest ih =>
    have apart : (rest.map (placed q floor (smaller ++ [p]))).sum =
        (rest.map (placed q floor smaller)).sum + (rest.map fun r => r.gain q floor p).sum := by
      rw [← List.sum_map_add]
      refine congrArg List.sum (List.map_congr_left fun r _ => ?_)
      simp [placed_eq]
    simp only [outcome, changes, List.sum_cons, List.map_cons, change_eq]
    by_cases ground : p.isGround = true
    · simp only [ground, if_true, loss]
      linarith [ih { destroyed := o.destroyed + p.destroyed
                     lost := o.lost + (p.destroyed - p.placed q floor smaller) } (smaller ++ [p])]
    · have nowhere : p.placed q floor smaller = 0 := by
        simp [placed_eq, gain_of_not_isGround ground]
      simp only [if_neg ground, loss, nowhere]
      linarith [ih o (smaller ++ [p])]

/-- What a pass reports as lost is what the bins lose together. -/
theorem sum_changes_add_lost (q floor : ℝ) (ps : List (Parent ℝ)) :
    (changes q floor ps).sum + (outcome q floor ⟨0, 0⟩ [] ps).lost = 0 := by
  have closed := lost_add_sum_changes q floor ⟨0, 0⟩ [] ps
  have nowhere : (ps.map (placed q floor [])).sum = 0 :=
    List.sum_eq_zero fun kg hkg => by
      obtain ⟨p, _, rfl⟩ := List.mem_map.mp hkg
      rfl
  linarith

/-! ## Fragments have room -/

/-- The mass of a power law of fragments up to a size, up to a factor. -/
noncomputable def cumulative (q s : ℝ) : ℝ := s ^ (4 - q) / (4 - q)

section Cumulative
variable {q : ℝ} (shallow : q < 4)
include shallow

theorem cumulative_zero : cumulative q 0 = 0 := by
  rw [cumulative, Real.zero_rpow (sub_pos.mpr shallow).ne', zero_div]

theorem cumulative_mono {a b : ℝ} (nonneg : 0 ≤ a) (ascending : a ≤ b) :
    cumulative q a ≤ cumulative q b := by
  have exponent : 0 < 4 - q := sub_pos.mpr shallow
  exact div_le_div_of_nonneg_right (Real.rpow_le_rpow nonneg ascending exponent.le) exponent.le

/-- The fragments of a parent reach up to its lower edge, and their slope is not critical. -/
theorem fragmentNorm?_eq_some {floor total : ℝ} {p : Parent ℝ}
    (h : p.fragmentNorm? q floor = some total) :
    0 < total ∧ total = cumulative q p.lower ∧ ¬ |4 - q| < 1e-12 := by
  simp only [fragmentNorm?, isFinite_real, true_and, Option.ite_none_right_eq_some,
    Option.some.injEq] at h
  obtain ⟨⟨positive, _⟩, rfl⟩ := h
  have four : (4.0 : ℝ) = 4 := by norm_num
  simp only [powerLawIntegral, ln_real, pow_real, magnitude_real, four] at positive ⊢
  split_ifs at positive ⊢ with empty flat
  · exact absurd positive (lt_irrefl 0)
  · simp at positive
  · refine ⟨positive, ?_, flat⟩
    rw [Real.zero_rpow (sub_pos.mpr shallow).ne', sub_zero, cumulative]

/-- The part of a power law that falls into a bin above the floor. -/
theorem powerLawIntegral_le {lower upper : ℝ} (nonneg : 0 ≤ lower) (ascending : lower ≤ upper)
    (steep : ¬ |4 - q| < 1e-12) (floor : ℝ) :
    powerLawIntegral (max lower floor) upper q ≤ cumulative q upper - cumulative q lower := by
  have four : (4.0 : ℝ) = 4 := by norm_num
  simp only [powerLawIntegral, ln_real, pow_real, magnitude_real, four, if_neg steep]
  split_ifs with empty
  · exact sub_nonneg.mpr (cumulative_mono shallow nonneg ascending)
  · rw [sub_div]
    exact sub_le_sub_left (cumulative_mono shallow nonneg (le_max_left lower floor)) _

end Cumulative

/-- Bins of positive width, each below the next. -/
structure Ascend (ps : List (Parent ℝ)) : Prop where
  widths : ∀ p ∈ ps, 0 < p.lower ∧ p.lower < p.upper
  ascends : ps.Pairwise fun p p' => p.upper ≤ p'.lower

theorem Ascend.of_cons {p : Parent ℝ} {ps : List (Parent ℝ)} (h : Ascend (p :: ps)) :
    Ascend ps where
  widths := fun p' hp' => h.widths p' (List.mem_cons_of_mem p hp')
  ascends := (List.pairwise_cons.mp h.ascends).2

/-- Bins that do not overlap hold no more of a power law than there is up to their top. -/
theorem sum_cumulative_le {q : ℝ} (shallow : q < 4) {ps : List (Parent ℝ)} (ascend : Ascend ps)
    {bottom top : ℝ} (nonneg : 0 ≤ bottom) (ordered : bottom ≤ top)
    (above : ∀ p ∈ ps, bottom ≤ p.lower) (below : ∀ p ∈ ps, p.upper ≤ top) :
    (ps.map fun p => cumulative q p.upper - cumulative q p.lower).sum ≤
      cumulative q top - cumulative q bottom := by
  induction ps generalizing bottom with
  | nil => simpa using cumulative_mono shallow nonneg ordered
  | cons p ps ih =>
    have width := ascend.widths p List.mem_cons_self
    have reach := ascend.ascends
    rw [List.pairwise_cons] at reach
    have rest := ih ascend.of_cons (width.1.trans width.2).le (below p List.mem_cons_self)
      reach.1 fun p' hp' => below p' (List.mem_cons_of_mem p hp')
    have first := cumulative_mono shallow nonneg (above p List.mem_cons_self)
    rw [List.map_cons, List.sum_cons]
    linarith

/-- What a smaller bin receives is not negative, and no more than its part of the fragments. -/
theorem gain_mem {q floor : ℝ} (shallow : q < 4) {p child : Parent ℝ} (positive : 0 < child.lower)
    (ascending : child.lower < child.upper) :
    0 ≤ p.gain q floor child ∧ (p.gain q floor child) * cumulative q p.lower ≤
      p.loss * (cumulative q child.upper - cumulative q child.lower) := by
  have width : 0 ≤ cumulative q child.upper - cumulative q child.lower :=
    sub_nonneg.mpr (cumulative_mono shallow positive.le ascending.le)
  by_cases ground : p.isGround = true
  · have destroyed : 0 < p.destroyed := isGround_iff.mp ground
    have idle : 0 ≤ p.loss * (cumulative q child.upper - cumulative q child.lower) :=
      mul_nonneg (by simp [loss, ground, destroyed.le]) width
    cases norm : p.fragmentNorm? q floor with
    | none => simpa [gain, gain?, ground, norm] using idle
    | some total =>
      obtain ⟨totalPositive, rfl, steep⟩ := fragmentNorm?_eq_some shallow norm
      simp only [gain, gain?, ground, norm, if_true, fmax_real]
      split_ifs with placed
      · have part := powerLawIntegral_le shallow positive.le ascending.le steep floor
        refine ⟨mul_nonneg destroyed.le placed.le, ?_⟩
        rw [Option.getD_some, loss, if_pos ground, mul_assoc, div_mul_cancel₀ _ totalPositive.ne']
        exact mul_le_mul_of_nonneg_left part destroyed.le
      · simpa using idle
  · have nothing : p.loss = 0 := by simp [loss, ground]
    simp [gain_of_not_isGround ground, nothing]

/-- Larger bins only add to a bin. -/
theorem neg_loss_le_change {q floor : ℝ} (shallow : q < 4) {child : Parent ℝ}
    (positive : 0 < child.lower) (ascending : child.lower < child.upper)
    (larger : List (Parent ℝ)) : -child.loss ≤ child.change q floor larger := by
  have gains : 0 ≤ (larger.map fun p => p.gain q floor child).sum :=
    List.sum_nonneg fun kg hkg => by
      obtain ⟨p, _, rfl⟩ := List.mem_map.mp hkg
      exact (gain_mem shallow positive ascending).1
  rw [change_eq]
  linarith

/-- The fragments that find a place are no more than what is destroyed. -/
theorem placed_le_loss {q : ℝ} (shallow : q < 4) {smaller : List (Parent ℝ)} {p : Parent ℝ}
    (ascend : Ascend smaller) (positive : 0 < p.lower)
    (below : ∀ child ∈ smaller, child.upper ≤ p.lower) (floor : ℝ) :
    p.placed q floor smaller ≤ p.loss := by
  have top : 0 < cumulative q p.lower :=
    div_pos (Real.rpow_pos_of_pos positive _) (sub_pos.mpr shallow)
  have room := sum_cumulative_le shallow ascend le_rfl positive.le
    (fun child h => (ascend.widths child h).1.le) below
  rw [cumulative_zero shallow, sub_zero] at room
  have loses : 0 ≤ p.loss := by
    simp only [loss]
    split_ifs with ground
    · exact (isGround_iff.mp ground).le
    · exact le_rfl
  have shares : p.placed q floor smaller * cumulative q p.lower ≤
      p.loss *
        (smaller.map fun child => cumulative q child.upper - cumulative q child.lower).sum := by
    rw [placed_eq, ← List.sum_map_mul_right, ← List.sum_map_mul_left]
    refine List.sum_le_sum fun child h => ?_
    exact (gain_mem shallow (ascend.widths child h).1 (ascend.widths child h).2).2
  exact le_of_mul_le_mul_right (shares.trans (mul_le_mul_of_nonneg_left room loses)) top

/-- No negative mass is reported as lost. -/
theorem lost_nonneg {q floor : ℝ} (shallow : q < 4) {o : GrindOutcome ℝ}
    {smaller rest : List (Parent ℝ)} (start : 0 ≤ o.lost) (ascend : Ascend (smaller ++ rest)) :
    0 ≤ (outcome q floor o smaller rest).lost := by
  induction rest generalizing o smaller with
  | nil => exact start
  | cons p rest ih =>
    have widths := ascend.widths
    have ascends := List.pairwise_append.mp ascend.ascends
    have fits := placed_le_loss (p := p) shallow
      ⟨fun c h => widths c (List.mem_append_left _ h), ascends.1⟩
      (widths p (List.mem_append_right _ List.mem_cons_self)).1
      (fun c h => ascends.2.2 c h p List.mem_cons_self) floor
    refine ih ?_ (by simpa using ascend)
    split_ifs with ground
    · rw [loss, if_pos ground] at fits
      simp only
      linarith
    · exact start

end Parent
namespace CollisionSettings
variable {s : CollisionSettings ℝ} {bins : SizeBins ℝ}

theorem ascend_parents (grid : bins.IsGrid) (floor fraction : ℝ) :
    Parent.Ascend (parents bins floor fraction) where
  widths p hp := by
    obtain ⟨j, hj⟩ := List.mem_iff_getElem?.mp hp
    obtain ⟨_, span, _, hspan, rfl⟩ := getElem?_parents_eq_some.mp hj
    exact grid.widths span (List.mem_of_getElem? hspan)
  ascends := by
    rw [List.pairwise_iff_getElem]
    intro i j hi hj before
    simp only [parents, List.length_zipWith, lt_inf_iff] at hi hj
    simp only [parents, List.getElem_zipWith]
    exact List.pairwise_iff_getElem.mp grid.ascends i j hi.2 hj.2 before

/-- A bin loses at most what it holds, whatever it receives. -/
theorem change_covered (grid : bins.IsGrid) (nonneg : bins.IsNonneg) (shallow : s.slope < 4)
    {tColl : Timescale ℝ} {dt : Time ℝ} {floor : ℝ} {j : ℕ} {m change : ℝ}
    (held : bins.masses[j]? = some m)
    (changes : (s.changes bins tColl dt floor)[j]? = some change) : 0 ≤ m + change := by
  simp only [CollisionSettings.changes] at changes
  split_ifs at changes
  · simp at changes
  · rw [Parent.getElem?_changes, Option.map_eq_some_iff] at changes
    obtain ⟨p, hp, rfl⟩ := changes
    obtain ⟨_, span, held', hspan, rfl⟩ := getElem?_parents_eq_some.mp hp
    obtain rfl := Option.some.inj (held'.symm.trans held)
    have width := grid.widths span (List.mem_of_getElem? hspan)
    have weight := grid.activeWeight_mem (List.mem_of_getElem? hspan) floor
    have fraction := tColl.decayFraction_mem dt.seconds
    have mass := nonneg _ (List.mem_of_getElem? held)
    have activeNonneg := mul_nonneg mass weight.1
    have active := mul_le_of_le_one_right mass weight.2
    have destroyed := mul_le_of_le_one_right activeNonneg fraction.2
    refine neg_le_iff_add_nonneg'.mp ?_
    refine le_trans ?_ (Parent.neg_loss_le_change shallow width.1 width.2 _)
    rw [Parent.loss_eq (mul_nonneg activeNonneg fraction.1)]
    exact neg_le_neg (destroyed.trans active)

/-- What a pass asks a bin for, it holds. -/
theorem draws_grind_covered (grid : bins.IsGrid) (nonneg : bins.IsNonneg)
    (shallow : s.slope < 4) (tColl : Timescale ℝ) (dt : Time ℝ) (floor : ℝ) :
    ∀ d ∈ draws bins.masses ((s.changes bins tColl dt floor).map withdrawal?), d.IsCovered := by
  intro d hd
  obtain ⟨j, held, asked⟩ := mem_draws_iff.mp hd
  rw [List.getElem?_map, Option.map_eq_some_iff] at asked
  obtain ⟨change, changes, taken⟩ := asked
  have covered := change_covered grid nonneg shallow held changes
  simp only [withdrawal?, Option.ite_none_left_eq_some, Option.ite_none_right_eq_some,
    Option.some.injEq] at taken
  obtain ⟨_, loss, asked⟩ := taken
  exact ⟨by linarith, by linarith⟩

/-- A pass moves all it reports, and leaves no negative mass. -/
theorem grind_exact (grid : bins.IsGrid) (nonneg : bins.IsNonneg) (shallow : s.slope < 4)
    (tColl : Timescale ℝ) (dt : Time ℝ) (floor : ℝ) :
    (s.grind bins tColl dt floor).1.IsNonneg ∧
    ∃ ground, (s.grind bins tColl dt floor).2 = some ground ∧ 0 ≤ ground.lost ∧
      (s.grind bins tColl dt floor).1.masses.sum + ground.lost = bins.masses.sum := by
  have short : (s.changes bins tColl dt floor).length ≤ bins.masses.length := by
    simp only [CollisionSettings.changes]
    split_ifs <;> simp [parents]
  have ground := grind_of_fine fun d hd =>
    (draws_grind_covered grid nonneg shallow tColl dt floor d hd).held_nonneg
  obtain ⟨sum, left⟩ := adjust_of_covered short fun j m change held changes =>
    change_covered grid nonneg shallow held changes
  have closed : (s.changes bins tColl dt floor).sum + (s.moved bins tColl dt floor).lost = 0 ∧
      0 ≤ (s.moved bins tColl dt floor).lost := by
    simp only [CollisionSettings.changes, moved]
    split_ifs
    · simp
    · exact ⟨Parent.sum_changes_add_lost _ _ _,
        Parent.lost_nonneg shallow le_rfl (ascend_parents grid _ _)⟩
  rw [ground]
  refine ⟨left nonneg, _, rfl, closed.2, ?_⟩
  simp only [sum]
  linarith [closed.1]

end CollisionSettings
end DebrisDisk
