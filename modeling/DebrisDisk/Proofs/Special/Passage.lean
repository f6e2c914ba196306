import DebrisDisk.Proofs.Special.Shares

/-!
# The stages of a step with special values

No stage of a step makes a mass negative, but a mass may become undefined. A bin with an undefined
mass refuses to be drawn from, so what matters is where such a mass can meet a withdrawal.

* Blow-out asks every bin, right after the supply was spread. Its requests are finite.
* Sublimation comes next, and grinding skips a bin whose mass is undefined, since its change is.
* Gas drag and escape ask the active bins again.

## Main definitions

* `SupplySettings.Spoils`: the delivery leaves an undefined mass in some bin.
* `SizeBins.HoldsUndefined`: an active bin holds an undefined mass.
* `Evaluation.MeetsUndefined`: an undefined mass is drawn from in a step.

## Main results

* `Rounded.isAmount_passage`: no stage makes a mass negative.
* `Rounded.nan_mem_inject_iff`: when the supply leaves an undefined mass.
* `Rounded.exists_refused_draw_iff`: a withdrawal is refused exactly when it meets an undefined
  mass.
-/

namespace DebrisDisk
open Scalar

section Conditions
variable {α : Type} [Scalar α]

/-- Some bin has a share in the delivery, and either the delivered mass is undefined, or it is
infinite and some bin has no share in it. -/
def SupplySettings.Spoils (s : SupplySettings α) (bins : SizeBins α) (kg floor : α) : Prop :=
  ¬ kg ≤ 0 ∧ (∃ w ∈ s.shares bins floor, isZero w = false) ∧
    (isNaN kg = true ∨ isFinite kg = false ∧ ∃ w ∈ s.shares bins floor, isZero w = true)

/-- A bin with an active share holds an undefined mass. -/
def SizeBins.HoldsUndefined (b : SizeBins α) (floor : α) : Prop :=
  ∃ (j : Nat) (m : α) (span : α × α), b.masses[j]? = some m ∧ b.spans[j]? = some span ∧
    isNaN m = true ∧ isZero (activeWeight span.1 span.2 floor) = false

/-- In a step an undefined mass is drawn from: the delivery spoils the bins before blow-out, or an
active bin holds an undefined mass when gas drag or escape comes to it. -/
def Evaluation.MeetsUndefined (e : Evaluation α) (c : RunConfig α) (dt : Time α) (delivered : α)
    (bins : SizeBins α) : Prop :=
  let floor := e.floor.size.metres
  let p := e.passage c dt delivered bins
  c.supply.Spoils p.retired delivered floor ∨
    (c.sinks.gasDrag.enabled = true ∧ p.ground.HoldsUndefined floor) ∨
    (¬ e.timescales.escape.decayFraction dt.seconds ≤ 0 ∧ p.dragged.HoldsUndefined floor)

end Conditions

namespace Rounded
variable {R : Rounding}

/-- Every bin holds an amount. -/
def HoldsAmounts (b : SizeBins (Rounded R)) : Prop := ∀ m ∈ b.masses, m.IsAmount

/-- Every bin holds a finite mass that is not negative. -/
def HoldsFinite (b : SizeBins (Rounded R)) : Prop := ∀ m ∈ b.masses, 0 ≤ m ∧ isFinite m = true

theorem HoldsFinite.holdsAmounts {b : SizeBins (Rounded R)} (h : HoldsFinite b) : HoldsAmounts b :=
  fun m hm => isAmount_of_nonneg (h m hm).1

/-! ## Amounts stay amounts -/

theorem isAmount_withdrawAll (taken : Rounded R) {held : List (Rounded R)}
    (amounts : ∀ m ∈ held, m.IsAmount) (requests : List (Option (Rounded R))) :
    ∀ m ∈ (withdrawAll taken held requests).1, m.IsAmount := by
  induction held generalizing taken requests with
  | nil => simp [withdrawAll]
  | cons m ms ih =>
    simp only [List.mem_cons, forall_eq_or_imp] at amounts
    rcases requests with _ | ⟨_ | kg, rs⟩
    · simpa [withdrawAll] using amounts
    · simpa [withdrawAll] using ⟨amounts.1, ih taken amounts.2 rs⟩
    · by_cases fine : 0 ≤ m
      · simp only [withdrawAll, withdraw, fine, if_true, List.mem_cons, forall_eq_or_imp]
        exact ⟨isAmount_left kg fine, ih _ amounts.2 rs⟩
      · simpa [withdrawAll, withdraw, fine] using amounts

theorem isAmount_settle {held : List (Rounded R)} (amounts : ∀ m ∈ held, m.IsAmount)
    (changes : List (Rounded R)) : ∀ m ∈ (settle held changes).1, m.IsAmount := by
  induction held generalizing changes with
  | nil => simp [settle]
  | cons m ms ih =>
    simp only [List.mem_cons, forall_eq_or_imp] at amounts
    rcases changes with _ | ⟨change, rest⟩
    · simpa [settle] using amounts
    · by_cases gain : 0 < change
      · simp only [settle, gain, if_true, List.mem_cons, forall_eq_or_imp]
        exact ⟨amounts.1.add (isAmount_of_nonneg (le_of_lt gain)), ih amounts.2 rest⟩
      · by_cases loss : change < 0
        · by_cases fine : 0 ≤ m
          · simp only [settle, gain, loss, withdraw, fine, if_true, if_false, List.mem_cons,
              forall_eq_or_imp]
            exact ⟨isAmount_left _ fine, ih amounts.2 rest⟩
          · simpa [settle, gain, loss, withdraw, fine] using amounts
        · simp only [settle, gain, loss, if_false, List.mem_cons, forall_eq_or_imp]
          exact ⟨amounts.1, ih amounts.2 rest⟩

theorem isAmount_inject (s : SupplySettings (Rounded R)) {b : SizeBins (Rounded R)}
    (amounts : HoldsAmounts b) (kg : Rounded R) {floor : Rounded R} (positive : 0 < floor) :
    HoldsAmounts (s.inject b kg floor).1 := by
  simp only [SupplySettings.inject]
  split_ifs with nothing
  · exact amounts
  · exact amounts
  · intro held hheld
    obtain ⟨j, hj⟩ := List.mem_iff_getElem?.mp hheld
    obtain ⟨m, part, hm, hpart, rfl⟩ := List.getElem?_zipWith_eq_some.mp hj
    obtain ⟨w, hw, rfl⟩ := List.mem_map.mp (List.mem_of_getElem? hpart)
    exact (amounts m (List.mem_of_getElem? hm)).add
      ((isAmount_of_not_nonpos nothing).mul (isAmount_of_nonneg (shares_nonneg s b positive w hw)))

/-- No stage of a step makes a mass negative. -/
theorem isAmount_passage {e : Evaluation (Rounded R)} (positive : 0 < e.floor.size.metres)
    (c : RunConfig (Rounded R)) (dt : Time (Rounded R)) (delivered : Rounded R)
    {bins : SizeBins (Rounded R)} (amounts : HoldsAmounts bins) :
    ∀ b ∈ (e.passage c dt delivered bins).stages, HoldsAmounts b := by
  have retired : HoldsAmounts (e.passage c dt delivered bins).retired := by
    intro m hm
    obtain ⟨j, hj⟩ := List.mem_iff_getElem?.mp hm
    obtain ⟨m₀, _, held, _, rfl⟩ := (SizeBins.getElem?_retireBelow _ _ j).mp hj
    split_ifs
    · exact isAmount_of_nonneg (le_self zero_ne_nan)
    · exact amounts m₀ (List.mem_of_getElem? held)
  have supplied : HoldsAmounts (e.passage c dt delivered bins).supplied :=
    isAmount_inject c.supply retired delivered positive
  have blownOut : HoldsAmounts (e.passage c dt delivered bins).blownOut :=
    isAmount_withdrawAll 0 supplied _
  have sublimated : HoldsAmounts (e.passage c dt delivered bins).sublimated := by
    rw [Evaluation.passage_sublimated]
    exact isAmount_withdrawAll 0 blownOut _
  have ground : HoldsAmounts (e.passage c dt delivered bins).ground := by
    simp only [HoldsAmounts]
    rw [Evaluation.masses_passage_ground]
    exact isAmount_settle sublimated _
  have dragged : HoldsAmounts (e.passage c dt delivered bins).dragged := by
    rw [Evaluation.passage_dragged]
    exact isAmount_withdrawAll 0 ground _
  have escaped : HoldsAmounts (e.passage c dt delivered bins).escaped := by
    rw [Evaluation.passage_escaped]
    exact isAmount_withdrawAll 0 dragged _
  intro b hb
  simp only [Passage.stages, List.mem_cons, List.not_mem_nil, or_false] at hb
  rcases hb with rfl | rfl | rfl | rfl | rfl | rfl | rfl
  · exact retired
  · exact supplied
  · exact blownOut
  · exact sublimated
  · exact ground
  · exact dragged
  · exact escaped

/-! ## Where an undefined mass meets a withdrawal -/

/-- A positive or undefined number times one that is not negative is undefined when the first is, or
when it is infinite and the other is zero. -/
theorem mul_eq_nan_iff {x y : Rounded R} (hx : ¬ x ≤ 0) (hy : 0 ≤ y) :
    x * y = nan ↔ isNaN x = true ∨ isFinite x = false ∧ isZero y = true := by
  by_cases undefined : x = nan
  · simp [undefined]
  · have positive := (not_le_iff undefined zero_ne_nan).mp hx
    have nonzero := (pos_iff_size (le_of_lt positive)).mp positive
    have bounded : isFinite x = false ↔ x.size = ⊤ := by
      rw [← Bool.not_eq_true, isFinite_iff]
      simp [undefined]
    have empty : isZero y = true ↔ y.size = 0 := by
      simp [isZero_iff, (ne_nan_of_le hy).2]
    simp only [isNaN_iff, undefined, false_or, bounded, empty]
    constructor
    · intro product
      rcases mul_cases (le_of_lt positive) hy with ⟨_, ⟨zero, _⟩ | both⟩ | ⟨nonneg, _⟩
      · exact absurd zero nonzero
      · exact both
      · rw [product] at nonneg
        exact absurd nonneg le_nan
    · rintro ⟨infinite, zero⟩
      cases x with
      | nan => rfl
      | num s a =>
        cases y with
        | nan => exact mul_nan
        | num t b => rw [num_mul_num, if_pos (.inr ⟨infinite, zero⟩)]

private theorem nan_mem_zipWith_add_iff {held parts : List (Rounded R)}
    (length : parts.length = held.length) (nonneg : ∀ m ∈ held, 0 ≤ m)
    (amounts : ∀ p ∈ parts, p.IsAmount) :
    nan ∈ List.zipWith (· + ·) held parts ↔ nan ∈ parts := by
  induction held generalizing parts with
  | nil => simp [List.length_eq_zero_iff.mp length]
  | cons m ms ih =>
    rcases parts with _ | ⟨p, ps⟩
    · simp at length
    · simp only [List.mem_cons, forall_eq_or_imp] at nonneg amounts
      have first : nan = m + p ↔ nan = p := by
        constructor
        · intro sum
          rcases amounts.1 with undefined | given
          · exact undefined.symm
          · exact absurd (sum ▸ (add_nonneg nonneg.1 given).1) le_nan
        · rintro rfl
          exact add_nan.symm
      simp only [List.zipWith_cons_cons, List.mem_cons, first,
        ih (by simpa using length) nonneg.2 amounts.2]

/-- Supply leaves an undefined mass exactly when it spoils the bins. -/
theorem nan_mem_inject_iff (s : SupplySettings (Rounded R)) {b : SizeBins (Rounded R)}
    (shaped : b.IsShaped) (nonneg : ∀ m ∈ b.masses, 0 ≤ m) (kg : Rounded R) {floor : Rounded R}
    (positive : 0 < floor) :
    nan ∈ (s.inject b kg floor).1.masses ↔ s.Spoils b kg floor := by
  have fine : nan ∉ b.masses := fun h => le_nan (nonneg nan h)
  simp only [SupplySettings.inject]
  split_ifs with nothing nowhere
  · simp [SupplySettings.Spoils, nothing, fine]
  · have none : ¬ ∃ w ∈ s.shares b floor, isZero w = false := by
      simpa using nowhere
    simp [SupplySettings.Spoils, none, fine]
  · have some : ∃ w ∈ s.shares b floor, isZero w = false := by
      simpa using nowhere
    have share := shares_nonneg s b positive
    have length : ((s.shares b floor).map (kg * ·)).length = b.masses.length := by
      rw [List.length_map, SupplySettings.length_shares, shaped.spans]
    have amounts : ∀ p ∈ (s.shares b floor).map (kg * ·), p.IsAmount := by
      intro p hp
      obtain ⟨w, hw, rfl⟩ := List.mem_map.mp hp
      exact (isAmount_of_not_nonpos nothing).mul (isAmount_of_nonneg (share w hw))
    rw [nan_mem_zipWith_add_iff length nonneg amounts, List.mem_map]
    constructor
    · rintro ⟨w, hw, product⟩
      refine ⟨nothing, some, ?_⟩
      exact ((mul_eq_nan_iff nothing (share w hw)).mp product).imp_right
        fun both => ⟨both.1, w, hw, both.2⟩
    · rintro ⟨_, ⟨w, hw, _⟩, undefined | ⟨infinite, w', hw', zero⟩⟩
      · exact ⟨w, hw, (mul_eq_nan_iff nothing (share w hw)).mpr (.inl undefined)⟩
      · exact ⟨w', hw', (mul_eq_nan_iff nothing (share w' hw')).mpr (.inr ⟨infinite, zero⟩)⟩

/-- Grinding leaves a bin with an undefined mass alone, since its change is undefined. -/
theorem change_of_undefined (q floor : Rounded R) {child : Parent (Rounded R)}
    (undefined : child.destroyed = nan) (larger : List (Parent (Rounded R))) :
    child.change q floor larger = nan := by
  have ground : child.isGround = true := by simp [Parent.isGround, undefined]
  simp only [Parent.change]
  rw [if_pos ground, undefined, sub_nan]
  induction larger with
  | nil => rfl
  | cons p ps ih =>
    rw [List.foldl_cons]
    cases p.gain? q floor child with
    | none => exact ih
    | some kg => exact ih

/-- Grinding draws from no bin whose mass is undefined. -/
theorem held_ne_nan_of_grinding {s : CollisionSettings (Rounded R)} {bins : SizeBins (Rounded R)}
    {tColl : Timescale (Rounded R)} {dt : Time (Rounded R)} {floor : Rounded R}
    {d : Draw (Rounded R)}
    (h : d ∈ draws bins.masses ((s.changes bins tColl dt floor).map withdrawal?)) :
    d.held ≠ nan := by
  intro undefined
  obtain ⟨j, held, asked⟩ := mem_draws_iff.mp h
  rw [List.getElem?_map, Option.map_eq_some_iff] at asked
  obtain ⟨change, changed, asked⟩ := asked
  simp only [CollisionSettings.changes] at changed
  split_ifs at changed
  · simp at changed
  · rw [Parent.getElem?_changes, Option.map_eq_some_iff] at changed
    obtain ⟨parent, here, rfl⟩ := changed
    obtain ⟨m, span, mass, _, rfl⟩ := CollisionSettings.getElem?_parents_eq_some.mp here
    obtain rfl : m = nan := by
      rw [mass, undefined] at held
      exact Option.some.inj held
    rw [change_of_undefined _ _ (by simp)] at asked
    simp [withdrawal?] at asked

/-! ## What is refused among amounts -/

theorem isAmount_of_mem_draws {b : SizeBins (Rounded R)} (amounts : HoldsAmounts b)
    {requests : List (Option (Rounded R))} {d : Draw (Rounded R)}
    (hd : d ∈ draws b.masses requests) : d.held.IsAmount := by
  obtain ⟨j, held, _⟩ := mem_draws_iff.mp hd
  exact amounts _ (List.mem_of_getElem? held)

/-- A bin that refuses and holds an amount holds an undefined one. -/
theorem held_eq_nan {b : SizeBins (Rounded R)} (amounts : HoldsAmounts b)
    {requests : List (Option (Rounded R))} {d : Draw (Rounded R)}
    (hd : d ∈ draws b.masses requests) (refused : ¬ 0 ≤ d.held) : d.held = nan :=
  (isAmount_of_mem_draws amounts hd).resolve_right refused

/-- Draining active bins is refused exactly when one holds an undefined mass. -/
theorem exists_refused_drain_iff {b : SizeBins (Rounded R)} (shaped : b.IsShaped)
    (amounts : HoldsAmounts b) (floor : Rounded R) (fraction : Rounded R → Rounded R) :
    (∃ d ∈ draws b.masses (b.drainRequests floor fraction), ¬ 0 ≤ d.held) ↔
      b.HoldsUndefined floor := by
  constructor
  · rintro ⟨d, hd, refused⟩
    obtain ⟨j, span, _, held, here, _, active, _⟩ := SizeBins.mem_draws_drainRequests_iff.mp hd
    exact ⟨j, d.held, span, held, here, isNaN_iff.mpr (held_eq_nan amounts hd refused), active⟩
  · rintro ⟨j, m, span, held, here, undefined, active⟩
    have bin : j < b.centres.length := by
      rw [shaped.centres]
      exact (List.getElem?_eq_some_iff.mp held).1
    let d : Draw (Rounded R) :=
      ⟨m, m * activeWeight span.1 span.2 floor * fraction b.centres[j]⟩
    have hd : d ∈ draws b.masses (b.drainRequests floor fraction) :=
      SizeBins.mem_draws_drainRequests_iff.mpr
        ⟨j, span, b.centres[j], held, here, List.getElem?_eq_getElem bin, active, rfl⟩
    refine ⟨d, hd, ?_⟩
    change ¬ 0 ≤ m
    rw [isNaN_iff.mp undefined]
    exact le_nan

section Step
variable {e : Evaluation (Rounded R)} {c : RunConfig (Rounded R)}
  {selector : PressureSelector (Rounded R)} {state : DiskState (Rounded R)}
  {dt : Time (Rounded R)}

/-- Blow-out leaves every mass defined, provided the supply did. -/
theorem blownOut_nonneg (h : e.IsOf c selector state) (defined : dt.seconds ≠ nan)
    (positive : 0 < e.floor.size.metres)
    (sound : HoldsFinite state.bins) (delivered : Rounded R)
    (supplied : ∀ m ∈ (e.passage c dt delivered state.bins).supplied.masses, 0 ≤ m) :
    ∀ m ∈ (e.passage c dt delivered state.bins).blownOut.masses, 0 ≤ m := by
  have fine : ∀ d ∈ draws (e.passage c dt delivered state.bins).supplied.masses
      ((e.removal c dt).map some), 0 ≤ d.held := by
    intro d hd
    obtain ⟨j, held, _⟩ := mem_draws_iff.mp hd
    exact supplied _ (List.mem_of_getElem? held)
  have blownOut : (e.passage c dt delivered state.bins).blownOut.masses =
      leave (e.passage c dt delivered state.bins).supplied.masses ((e.removal c dt).map some) :=
    congrArg (fun p => p.1.masses) (SizeBins.withdrawAll_eq fine)
  rw [blownOut]
  intro left hleft
  obtain ⟨j, hj⟩ := List.mem_iff_getElem?.mp hleft
  rw [getElem?_leave] at hj
  obtain ⟨m, hm, rfl⟩ := Option.map_eq_some_iff.mp hj
  have nonneg := supplied m (List.mem_of_getElem? hm)
  rw [List.getElem?_map]
  cases asked : (e.removal c dt)[j]? with
  | none => exact nonneg
  | some kg =>
    obtain ⟨t, m₀, span, time, held, _, rfl⟩ := (Evaluation.getElem?_removal_eq_some h).mp asked
    obtain ⟨nonneg₀, finite⟩ := sound m₀ (List.mem_of_getElem? held)
    have proper := h.isProper_blowoutTimes t (List.mem_of_getElem? time)
    have planned := removalOf_mem h defined proper nonneg₀ finite
      (isShare_activeWeight positive span.1 span.2)
    exact left_nonneg nonneg planned.1 planned.2

/-- Retirement leaves every mass defined. -/
theorem retired_nonneg (sound : HoldsFinite state.bins)
    (delivered : Rounded R) :
    ∀ m ∈ (e.passage c dt delivered state.bins).retired.masses, 0 ≤ m := by
  intro m hm
  obtain ⟨j, hj⟩ := List.mem_iff_getElem?.mp hm
  obtain ⟨m₀, _, held, _, rfl⟩ := (SizeBins.getElem?_retireBelow _ _ j).mp hj
  split_ifs
  · exact le_self zero_ne_nan
  · exact (sound m₀ (List.mem_of_getElem? held)).1

theorem nan_mem_supplied_iff (positive : 0 < e.floor.size.metres) (shaped : state.bins.IsShaped)
    (sound : HoldsFinite state.bins) (delivered : Rounded R) :
    nan ∈ (e.passage c dt delivered state.bins).supplied.masses ↔
      c.supply.Spoils (e.passage c dt delivered state.bins).retired delivered
        e.floor.size.metres := by
  have grid : state.bins.SameGrid (e.passage c dt delivered state.bins).retired :=
    SizeBins.sameGrid_retireBelow shaped _
  exact nan_mem_inject_iff c.supply (grid.isShaped shaped) (retired_nonneg sound delivered)
    delivered positive

/-- Blow-out is refused exactly when a mass is undefined after the supply. -/
theorem exists_refused_blowout_iff (h : e.IsOf c selector state)
    (positive : 0 < e.floor.size.metres) (shaped : state.bins.IsShaped)
    (sound : HoldsFinite state.bins) (delivered : Rounded R) :
    (∃ d ∈ draws (e.passage c dt delivered state.bins).supplied.masses
        ((e.removal c dt).map some), ¬ 0 ≤ d.held) ↔
      nan ∈ (e.passage c dt delivered state.bins).supplied.masses := by
  have supplied := isAmount_passage positive c dt delivered sound.holdsAmounts
    (e.passage c dt delivered state.bins).supplied (by simp [Passage.stages])
  have grid := Evaluation.sameGrid_passage e c dt delivered shaped
    (e.passage c dt delivered state.bins).supplied (by simp [Passage.stages])
  constructor
  · rintro ⟨d, hd, refused⟩
    rw [← held_eq_nan supplied hd refused]
    obtain ⟨j, held, _⟩ := mem_draws_iff.mp hd
    exact List.mem_of_getElem? held
  · intro undefined
    obtain ⟨j, hj⟩ := List.mem_iff_getElem?.mp undefined
    have bin : j < (e.removal c dt).length := by
      rw [Evaluation.length_removal h shaped, ← grid.size]
      exact (List.getElem?_eq_some_iff.mp hj).1
    exact ⟨⟨nan, (e.removal c dt)[j]⟩, mem_draws_iff.mpr ⟨j, hj, by simp [bin]⟩, le_nan⟩

/-- Every withdrawal of a step finds an amount. -/
theorem isAmount_held (positive : 0 < e.floor.size.metres) (sound : HoldsFinite state.bins)
    (delivered : Rounded R) : ∀ d ∈ e.draws c dt delivered state.bins, d.held.IsAmount := by
  have amounts := isAmount_passage positive c dt delivered sound.holdsAmounts
  simp only [Passage.stages, List.mem_cons, List.not_mem_nil, or_false, forall_eq_or_imp,
    forall_eq] at amounts
  obtain ⟨_, supplied, blownOut, sublimated, ground, dragged, _⟩ := amounts
  intro d hd
  simp only [Evaluation.draws, List.mem_append] at hd
  rcases hd with (((hd | hd) | hd) | hd) | hd
  · exact isAmount_of_mem_draws supplied hd
  · exact isAmount_of_mem_draws blownOut hd
  · exact isAmount_of_mem_draws sublimated hd
  · exact isAmount_of_mem_draws ground hd
  · exact isAmount_of_mem_draws dragged hd

/-- Gas drag is refused exactly when it is enabled and an active bin holds an undefined mass. -/
theorem exists_refused_drag_iff (positive : 0 < e.floor.size.metres) (shaped : state.bins.IsShaped)
    (sound : HoldsFinite state.bins) (delivered : Rounded R) :
    (∃ d ∈ draws (e.passage c dt delivered state.bins).ground.masses
        (c.sinks.gasDrag.requests c.material.density (e.passage c dt delivered state.bins).ground dt
          e.floor.size.metres), ¬ 0 ≤ d.held) ↔
      c.sinks.gasDrag.enabled = true ∧
        (e.passage c dt delivered state.bins).ground.HoldsUndefined e.floor.size.metres := by
  have ground := isAmount_passage positive c dt delivered sound.holdsAmounts
    (e.passage c dt delivered state.bins).ground (by simp [Passage.stages])
  have grid := Evaluation.sameGrid_passage e c dt delivered shaped
    (e.passage c dt delivered state.bins).ground (by simp [Passage.stages])
  by_cases enabled : c.sinks.gasDrag.enabled = true
  · simp only [GasDragSettings.requests, enabled, if_true, true_and]
    exact exists_refused_drain_iff (grid.isShaped shaped) ground _ _
  · simp [GasDragSettings.requests, enabled, draws]

/-- Escape is refused exactly when it acts and an active bin holds an undefined mass. -/
theorem exists_refused_escape_iff (positive : 0 < e.floor.size.metres)
    (shaped : state.bins.IsShaped) (sound : HoldsFinite state.bins) (delivered : Rounded R) :
    (∃ d ∈ draws (e.passage c dt delivered state.bins).dragged.masses
        ((e.passage c dt delivered state.bins).dragged.escapeRequests e.timescales.escape dt
          e.floor.size.metres), ¬ 0 ≤ d.held) ↔
      ¬ e.timescales.escape.decayFraction dt.seconds ≤ 0 ∧
        (e.passage c dt delivered state.bins).dragged.HoldsUndefined e.floor.size.metres := by
  have dragged := isAmount_passage positive c dt delivered sound.holdsAmounts
    (e.passage c dt delivered state.bins).dragged (by simp [Passage.stages])
  have grid := Evaluation.sameGrid_passage e c dt delivered shaped
    (e.passage c dt delivered state.bins).dragged (by simp [Passage.stages])
  by_cases idle : e.timescales.escape.decayFraction dt.seconds ≤ 0
  · simp [SizeBins.escapeRequests, idle, draws]
  · simp only [SizeBins.escapeRequests, idle, if_false, not_false_eq_true, true_and]
    exact exists_refused_drain_iff (grid.isShaped shaped) dragged _ _

/-- A withdrawal of a step is refused exactly when it meets an undefined mass. -/
theorem exists_refused_draw_iff (h : e.IsOf c selector state) (defined : dt.seconds ≠ nan)
    (positive : 0 < e.floor.size.metres) (shaped : state.bins.IsShaped)
    (sound : HoldsFinite state.bins) (delivered : Rounded R) :
    (∃ d ∈ e.draws c dt delivered state.bins, ¬ 0 ≤ d.held) ↔
      e.MeetsUndefined c dt delivered state.bins := by
  have amounts := isAmount_passage positive c dt delivered sound.holdsAmounts
  simp only [Passage.stages, List.mem_cons, List.not_mem_nil, or_false, forall_eq_or_imp,
    forall_eq] at amounts
  obtain ⟨_, supplied, _, sublimated, _⟩ := amounts
  have spoils : nan ∈ (e.passage c dt delivered state.bins).supplied.masses ↔ _ :=
    nan_mem_supplied_iff positive shaped sound delivered
  simp only [Evaluation.draws, List.mem_append, or_and_right, exists_or]
  rw [exists_refused_blowout_iff h positive shaped sound delivered, spoils,
    exists_refused_drag_iff positive shaped sound delivered,
    exists_refused_escape_iff positive shaped sound delivered]
  constructor
  · rintro ((((spoilt | ⟨d, hd, refused⟩) | ⟨d, hd, refused⟩) | drag) | escape)
    · exact .inl spoilt
    · -- blow-out leaves defined what the supply left defined
      by_contra unmet
      have unspoilt : ∀ m ∈ (e.passage c dt delivered state.bins).supplied.masses, 0 ≤ m :=
        fun m hm => (supplied m hm).nonneg fun undefined =>
          unmet (.inl (spoils.mp (undefined ▸ hm)))
      obtain ⟨j, held, _⟩ := mem_draws_iff.mp hd
      exact refused (blownOut_nonneg h defined positive sound delivered unspoilt _
        (List.mem_of_getElem? held))
    · exact absurd (held_eq_nan sublimated hd refused) (held_ne_nan_of_grinding hd)
    · exact .inr (.inl drag)
    · exact .inr (.inr escape)
  · rintro (spoilt | drag | escape)
    · exact .inl (.inl (.inl (.inl spoilt)))
    · exact .inl (.inr drag)
    · exact .inr escape

end Step

end Rounded
end DebrisDisk
