import DebrisDisk.Proofs.Special.Passage

/-!
# Regular steps with special values

An undefined mass does not come out of the blue. Finite bins stay defined in every stage as long as
the active shares are defined, because what a process asks a bin for is then a defined part of its
mass. So a step with a finite delivery and defined active shares is refused only after some bin has
become infinite.

## Main results

* `Rounded.not_meetsUndefined`: no undefined mass is drawn from in a regular step.
-/

namespace DebrisDisk.Rounded
open Scalar
variable {R : Rounding} {x y : Rounded R}

/-- What is left of a finite mass is defined. -/
theorem left_of_finite {kg : Rounded R} (h : 0 ≤ x) (finite : isFinite x = true)
    (defined : kg ≠ nan) : 0 ≤ x - clamp kg 0 x := by
  obtain ⟨nonneg, covered⟩ := clamp_mem h defined
  rcases sub_cases nonneg covered with ⟨_, infinite, _⟩ | ⟨left, _⟩
  · exact absurd infinite (isFinite_iff.mp finite).2
  · exact left

/-! ## Sublimation, gas drag and escape -/

/-- A difference of numbers that are not negative is not positive when the second is greater. -/
private theorem not_pos_sub (hx : 0 ≤ x) (h : x ≤ y) : ¬ 0 < x - y := by
  rcases sub_nonpos_cases hx h with undefined | ⟨s, d, difference, zero⟩
  · rw [undefined]
    exact lt_nan
  · rw [difference]
    intro positive
    have nonzero := (pos_iff_size (le_of_lt positive)).mp positive
    cases s with
    | false => exact nonzero (zero rfl)
    | true => exact nonzero (num_nonneg_iff.mp (le_of_lt positive) rfl)

/-- One less a share is a share. -/
theorem one_sub_mem (hx : 0 ≤ x) (h : x ≤ 1) : 0 ≤ 1 - x ∧ 1 - x ≤ 1 := by
  rcases sub_cases hx h with ⟨_, infinite, _⟩ | ⟨nonneg, size⟩
  · simp at infinite
  · refine ⟨nonneg, ?_⟩
    rw [le_iff_size nonneg zero_le_one, size, size_one, ← R.round_one]
    exact R.monotone (by simp)

/-- A grain loses a defined fraction of its mass, even when its loss of radius is undefined. -/
theorem shrinkLoss_mem (size : Rounded R) {ds : Rounded R} (amount : ds.IsAmount) :
    0 ≤ shrinkLoss size ds ∧ shrinkLoss size ds ≤ 1 := by
  simp only [shrinkLoss]
  split_ifs with unphysical
  · exact ⟨zero_le_one, le_self one_ne_nan⟩
  · have left : 0 ≤ fmax (1 - ds / size) 0 ∧ fmax (1 - ds / size) 0 ≤ 1 := by
      rw [fmax_eq zero_ne_nan]
      split_ifs with some
      · have ratio : (ds / size).IsAmount := by
          by_cases defined : size = nan
          · rw [defined, div_nan]
            exact isAmount_nan
          · exact amount.div ((not_le_iff defined zero_ne_nan).mp unphysical)
        have defined : ds / size ≠ nan := fun undefined => by simp [undefined] at some
        have nonneg := ratio.nonneg defined
        have less : ds / size ≤ 1 := by
          rw [← not_lt_iff one_ne_nan defined]
          exact fun greater => not_pos_sub zero_le_one (le_of_lt greater) some
        exact one_sub_mem nonneg less
      · exact ⟨le_self zero_ne_nan, zero_le_one⟩
    have square := mul_le_one left.1 left.2 left.1 left.2
    have cube := mul_le_one square.1 square.2 left.1 left.2
    exact one_sub_mem cube.1 cube.2

/-- Draining a fraction of the active mass leaves finite bins defined. -/
theorem drained_nonneg {b : SizeBins (Rounded R)} (holds : HoldsFinite b) {floor : Rounded R}
    (positive : 0 < floor)
    (shares : ∀ span ∈ b.spans, isNaN (activeWeight span.1 span.2 floor) = false)
    {fraction : Rounded R → Rounded R} (part : ∀ s, 0 ≤ fraction s ∧ fraction s ≤ 1) :
    ∀ m ∈ (b.withdrawAll (b.drainRequests floor fraction)).1.masses, 0 ≤ m := by
  have fine : ∀ d ∈ draws b.masses (b.drainRequests floor fraction), 0 ≤ d.held := by
    intro d hd
    obtain ⟨j, held, _⟩ := mem_draws_iff.mp hd
    exact (holds _ (List.mem_of_getElem? held)).1
  rw [SizeBins.withdrawAll_eq fine]
  intro left hleft
  obtain ⟨j, hj⟩ := List.mem_iff_getElem?.mp hleft
  rw [getElem?_leave] at hj
  obtain ⟨m, hm, rfl⟩ := Option.map_eq_some_iff.mp hj
  obtain ⟨nonneg, finite⟩ := holds m (List.mem_of_getElem? hm)
  rcases asked : (b.drainRequests floor fraction)[j]? with _ | _ | kg
  · exact nonneg
  · exact nonneg
  · have draw : (⟨m, kg⟩ : Draw (Rounded R)) ∈ draws b.masses (b.drainRequests floor fraction) :=
      mem_draws_iff.mpr ⟨j, hm, asked⟩
    obtain ⟨_, span, centre, _, here, _, _, product⟩ :=
      SizeBins.mem_draws_drainRequests_iff.mp draw
    have weight := (isShare_activeWeight positive span.1 span.2).resolve_left fun undefined => by
      have := shares span (List.mem_of_getElem? here)
      simp [undefined, isNaN] at this
    have active := mul_mem nonneg finite weight.1 weight.2
    have request := mul_mem active.1 (isFinite_of_le active.1 active.2 finite)
      (part centre).1 (part centre).2
    refine left_of_finite nonneg finite fun undefined => (ne_nan_of_le request.1).2 ?_
    exact product.trans undefined

/-! ## Grinding -/

theorem adjust_nonneg {held : List (Rounded R)} (holds : ∀ m ∈ held, 0 ≤ m ∧ isFinite m = true)
    (changes : List (Rounded R)) : ∀ m ∈ adjust held changes, 0 ≤ m := by
  induction held generalizing changes with
  | nil => simp [adjust]
  | cons m ms ih =>
    simp only [List.mem_cons, forall_eq_or_imp] at holds
    obtain ⟨⟨nonneg, finite⟩, later⟩ := holds
    rcases changes with _ | ⟨change, rest⟩
    · intro m' hm'
      simp only [adjust_nil, List.mem_cons] at hm'
      rcases hm' with rfl | hm'
      · exact nonneg
      · exact (later m' hm').1
    · simp only [adjust, List.mem_cons, forall_eq_or_imp]
      refine ⟨?_, ih later rest⟩
      simp only [adjusted]
      split_ifs with gain loss
      · exact (add_nonneg nonneg (le_of_lt gain)).1
      · exact left_of_finite nonneg finite (neg_ne_nan (ne_nan_of_lt loss).1)
      · exact nonneg

/-! ## A whole step -/

section Step
variable {e : Evaluation (Rounded R)} {c : RunConfig (Rounded R)}
  {selector : PressureSelector (Rounded R)} {state : DiskState (Rounded R)}
  {dt : Time (Rounded R)} {delivered : Rounded R}

/-- Sublimation leaves finite bins defined. -/
theorem sublimated_nonneg (forward : 0 ≤ dt.seconds) (positive : 0 < e.floor.size.metres)
    (shaped : state.bins.IsShaped)
    (shares : ∀ span ∈ state.bins.spans,
      isNaN (activeWeight span.1 span.2 e.floor.size.metres) = false)
    (blownOut : HoldsFinite (e.passage c dt delivered state.bins).blownOut) :
    ∀ m ∈ (e.passage c dt delivered state.bins).sublimated.masses, 0 ≤ m := by
  have grid := Evaluation.sameGrid_passage e c dt delivered shaped
    (e.passage c dt delivered state.bins).blownOut (by simp [Passage.stages])
  rw [Evaluation.passage_sublimated]
  by_cases idle : e.sublimation.shrinkRate ≤ 0
  · simp only [SublimationRates.requests, idle, if_true, SizeBins.withdrawAll_nil]
    exact fun m hm => (blownOut m hm).1
  · have amount : (e.sublimation.shrinkRate * dt.seconds).IsAmount :=
      (isAmount_of_not_nonpos idle).mul (isAmount_of_nonneg forward)
    simp only [SublimationRates.requests, idle, if_false]
    exact drained_nonneg blownOut positive (by rwa [grid.spans]) fun s => shrinkLoss_mem s amount

/-- Grinding leaves finite bins defined. -/
theorem ground_nonneg (sublimated : HoldsFinite (e.passage c dt delivered state.bins).sublimated) :
    ∀ m ∈ (e.passage c dt delivered state.bins).ground.masses, 0 ≤ m := by
  have fine : ∀ d ∈ draws (e.passage c dt delivered state.bins).sublimated.masses
      ((c.collisions.changes (e.passage c dt delivered state.bins).sublimated e.timescales.coll dt
        e.floor.size.metres).map withdrawal?), 0 ≤ d.held := by
    intro d hd
    obtain ⟨j, held, _⟩ := mem_draws_iff.mp hd
    exact (sublimated _ (List.mem_of_getElem? held)).1
  rw [Evaluation.masses_passage_ground, settle_eq fine]
  exact adjust_nonneg sublimated _

/-- Gas drag leaves finite bins defined. -/
theorem dragged_nonneg (defined : dt.seconds ≠ nan) (positive : 0 < e.floor.size.metres)
    (shaped : state.bins.IsShaped)
    (shares : ∀ span ∈ state.bins.spans,
      isNaN (activeWeight span.1 span.2 e.floor.size.metres) = false)
    (ground : HoldsFinite (e.passage c dt delivered state.bins).ground) :
    ∀ m ∈ (e.passage c dt delivered state.bins).dragged.masses, 0 ≤ m := by
  have grid := Evaluation.sameGrid_passage e c dt delivered shaped
    (e.passage c dt delivered state.bins).ground (by simp [Passage.stages])
  rw [Evaluation.passage_dragged]
  by_cases enabled : c.sinks.gasDrag.enabled = true
  · simp only [GasDragSettings.requests, enabled, if_true]
    refine drained_nonneg ground positive (by rwa [grid.spans]) fun size => ?_
    have time : (c.sinks.gasDrag.timescale c.material.density size).IsProper :=
      isProper_gasDragTimescale _ _ _
    have taken := time.isFraction_decayFraction (le_self defined)
    exact ⟨taken.nonneg, taken.le_one⟩
  · simp only [GasDragSettings.requests, if_neg enabled, SizeBins.withdrawAll_nil]
    exact fun m hm => (ground m hm).1

/-- No undefined mass is drawn from in a step with a finite delivery and defined active shares, as
long as no bin becomes infinite. -/
theorem not_meetsUndefined (h : e.IsOf c selector state)
    (forward : 0 ≤ dt.seconds) (positive : 0 < e.floor.size.metres) (shaped : state.bins.IsShaped)
    (sound : HoldsFinite state.bins) (finite : isFinite delivered = true)
    (shares : ∀ span ∈ state.bins.spans,
      isNaN (activeWeight span.1 span.2 e.floor.size.metres) = false)
    (bounded : ∀ b ∈ (e.passage c dt delivered state.bins).stages, ∀ m ∈ b.masses,
      isFinite m = true ∨ isNaN m = true) :
    ¬ e.MeetsUndefined c dt delivered state.bins := by
  have defined := (ne_nan_of_le forward).2
  -- every stage hands finite masses to the next
  have handed {b : SizeBins (Rounded R)}
      (hb : b ∈ (e.passage c dt delivered state.bins).stages) (nonneg : ∀ m ∈ b.masses, 0 ≤ m) :
      HoldsFinite b := by
    intro m hm
    refine ⟨nonneg m hm, (bounded b hb m hm).resolve_right fun undefined => ?_⟩
    exact (ne_nan_of_le (nonneg m hm)).2 (isNaN_iff.mp undefined)
  have unspoilt : ¬ c.supply.Spoils (e.passage c dt delivered state.bins).retired delivered
      e.floor.size.metres := by
    rintro ⟨_, _, undefined | ⟨infinite, _⟩⟩
    · exact ne_nan_of_isFinite finite (isNaN_iff.mp undefined)
    · rw [finite] at infinite
      cases infinite
  have amounts := isAmount_passage positive c dt delivered sound.holdsAmounts
    (e.passage c dt delivered state.bins).supplied (by simp [Passage.stages])
  have supplied : ∀ m ∈ (e.passage c dt delivered state.bins).supplied.masses, 0 ≤ m :=
    fun m hm => (amounts m hm).nonneg fun undefined =>
      unspoilt ((nan_mem_supplied_iff positive shaped sound delivered).mp (undefined ▸ hm))
  have blownOut := handed (by simp [Passage.stages])
    (blownOut_nonneg h defined positive sound delivered supplied)
  have sublimated := handed (by simp [Passage.stages])
    (sublimated_nonneg forward positive shaped shares blownOut)
  have ground := handed (by simp [Passage.stages]) (ground_nonneg sublimated)
  have dragged := dragged_nonneg defined positive shaped shares ground
  rintro (spoilt | ⟨_, _, m, _, held, _, undefined, _⟩ | ⟨_, _, m, _, held, _, undefined, _⟩)
  · exact unspoilt spoilt
  · exact ne_nan_of_isFinite (ground m (List.mem_of_getElem? held)).2 (isNaN_iff.mp undefined)
  · exact (ne_nan_of_le (dragged m (List.mem_of_getElem? held))).2 (isNaN_iff.mp undefined)

end Step

end DebrisDisk.Rounded
