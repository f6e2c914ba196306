import DebrisDisk.Proofs.Exact.Opacity
import DebrisDisk.Proofs.Exact.Passage

/-!
# Processes that drain the bins

Sublimation, gas drag and escape take a fraction of the active mass of every bin. In exact
arithmetic such a process leaves each bin a share of what it held, and reports just what is missing
afterwards. The shares are all there is to know about it: two processes that leave the same shares
have the same outcome, and the shares of processes that follow each other multiply.

Gas drag and escape are decays. Where the floor cuts no bin, an active bin keeps the exponential of
the step times its rate, so a step may be split, and drag and escape may change places.

## Main definitions

* `SizeBins.Keeps`: the shares that a process leaves.
* `SizeBins.inTurn`: one process after another.
* `SizeBins.IsUncutAt`: a floor that cuts no bin.

## Main results

* `SizeBins.Keeps.unique`, `SizeBins.Keeps.inTurn`: shares determine outcomes, and multiply.
* `SizeBins.IsGrid.keeps_drain`: the shares that are left where a fraction is taken.
* `SizeBins.drag_and_escape_in_turn`: split steps, and drag and escape in either order.
-/

namespace DebrisDisk
open Scalar

/-- What is left of a decay is the exponential of the time over the timescale. -/
theorem Timescale.IsProper.one_sub_decayFraction {t : Timescale ℝ} (proper : t.IsProper) {dt : ℝ}
    (forward : 0 ≤ dt) : 1 - t.decayFraction dt = Real.exp (-(dt * t.rate)) := by
  cases t with
  | infinite => simp
  | finite s =>
    have exponent : -dt / s = -(dt * (1 / s)) := by ring
    have ratio : 0 ≤ dt * (1 / s) := mul_nonneg forward (one_div_pos.mpr (proper s rfl).2).le
    rw [decayFraction, exponent, clamp_neg_expm1 ratio, rate, sub_sub_cancel]

namespace SizeBins
variable {b left after : SizeBins ℝ}

/-! ## Bins of one grid -/

namespace SameGrid
variable (same : b.SameGrid after)
include same

theorem size_eq : after.size = b.size := same.size

theorem edgeAt (i : ℕ) : after.edgeAt i = b.edgeAt i := by
  rw [SizeBins.edgeAt, SizeBins.edgeAt, same.edges]

theorem centreAt (i : ℕ) : after.centreAt i = b.centreAt i := by
  rw [SizeBins.centreAt, SizeBins.centreAt, same.centres]

/-- The bins of one grid are known by their masses. -/
theorem eq_of_massAt (same' : b.SameGrid left)
    (masses : ∀ i < b.size, left.massAt i = after.massAt i) : left = after := by
  have equal : left.masses = after.masses := by
    refine List.ext_getElem? fun i => ?_
    by_cases inside : i < b.size
    · rw [IsGrid.getElem?_masses (inside.trans_eq same'.size_eq.symm),
        IsGrid.getElem?_masses (inside.trans_eq same.size_eq.symm), masses i inside]
    · have none : left.masses.length ≤ i := same'.size.trans_le (not_lt.mp inside)
      have none' : after.masses.length ≤ i := same.size.trans_le (not_lt.mp inside)
      rw [List.getElem?_eq_none none, List.getElem?_eq_none none']
  have edges := same'.edges.trans same.edges.symm
  have centres := same'.centres.trans same.centres.symm
  have density := same'.density.trans same.density.symm
  cases left
  cases after
  simp_all

end SameGrid

/-! ## Shares -/

/-- A process leaves each bin a share of its mass, and reports what is missing afterwards. -/
structure Keeps (b : SizeBins ℝ) (share : ℕ → ℝ) (outcome : SizeBins ℝ × Option ℝ) : Prop where
  grid : b.SameGrid outcome.1
  bins : ∀ i < b.size, outcome.1.massAt i = b.massAt i * share i
  removed : outcome.2 = some (b.totalMass.kilograms - outcome.1.totalMass.kilograms)

/-- Lets the second process act on what the first one leaves; gives what both remove. -/
def inTurn (first second : SizeBins ℝ → SizeBins ℝ × Option ℝ) (b : SizeBins ℝ) :
    SizeBins ℝ × Option ℝ :=
  match first b with
  | (left, some kg) => ((second left).1, (second left).2.map (kg + ·))
  | (left, none) => (left, none)

/-- A process that does nothing. -/
theorem keeps_idle (b : SizeBins ℝ) : b.Keeps (fun _ => 1) (b, some 0) where
  grid := .refl b
  bins i _ := (mul_one _).symm
  removed := by rw [sub_self]

namespace Keeps
variable {share share' : ℕ → ℝ} {outcome outcome' : SizeBins ℝ × Option ℝ}

theorem congr (h : b.Keeps share outcome) (same : ∀ i < b.size, share i = share' i) :
    b.Keeps share' outcome where
  grid := h.grid
  bins i inside := by rw [h.bins i inside, same i inside]
  removed := h.removed

/-- Processes that leave the same shares have the same outcome. -/
theorem unique (h : b.Keeps share outcome) (h' : b.Keeps share outcome') : outcome = outcome' := by
  have same : outcome.1 = outcome'.1 :=
    h'.grid.eq_of_massAt h.grid fun i inside => by rw [h.bins i inside, h'.bins i inside]
  exact Prod.ext same (by rw [h.removed, h'.removed, same])

/-- The shares of processes that follow each other multiply. -/
theorem inTurn {first second : SizeBins ℝ → SizeBins ℝ × Option ℝ} (h : b.Keeps share (first b))
    (h' : (first b).1.Keeps share' (second (first b).1)) :
    b.Keeps (fun i => share i * share' i) (b.inTurn first second) := by
  rcases hfirst : first b with ⟨left, removed⟩
  rw [hfirst] at h h'
  rcases hsecond : second left with ⟨after, removed'⟩
  rw [hsecond] at h'
  have taken : removed = some (b.totalMass.kilograms - left.totalMass.kilograms) := h.removed
  have taken' : removed' = some (left.totalMass.kilograms - after.totalMass.kilograms) := h'.removed
  have outcome : b.inTurn first second =
      (after, some (b.totalMass.kilograms - after.totalMass.kilograms)) := by
    simp only [SizeBins.inTurn, hfirst, hsecond, taken, taken', Option.map_some,
      sub_add_sub_cancel]
  rw [outcome]
  refine ⟨h.grid.trans h'.grid, fun i inside => ?_, rfl⟩
  rw [h'.bins i (inside.trans_eq h.grid.size_eq.symm), h.bins i inside, mul_assoc]

theorem isNonneg (h : b.Keeps share outcome) (nonneg : b.IsNonneg) (some : ∀ i, 0 ≤ share i) :
    outcome.1.IsNonneg := by
  intro m member
  obtain ⟨i, held⟩ := List.mem_iff_getElem?.mp member
  have inside : i < b.size :=
    (List.getElem?_eq_some_iff.mp held).1.trans_eq h.grid.size
  rw [← massAt_of_getElem? held, h.bins i inside]
  exact mul_nonneg (nonneg _ (List.mem_of_getElem? (IsGrid.getElem?_masses inside))) (some i)

end Keeps

/-! ## Drains -/

namespace IsGrid
variable (grid : b.IsGrid)
include grid

theorem getElem?_drainRequests (floor : ℝ) (fraction : ℝ → ℝ) {i : ℕ} (inside : i < b.size) :
    (b.drainRequests floor fraction)[i]? = some (if isZero (b.weightAt floor i) then none
      else some (b.massAt i * b.weightAt floor i * fraction (b.centreAt i))) :=
  List.getElem?_zipWith_eq_some.mpr ⟨_, (b.weightAt floor i, b.centreAt i),
    getElem?_masses inside, List.getElem?_zip_eq_some.mpr
      ⟨grid.getElem?_activeWeights floor inside, grid.getElem?_centres inside⟩, rfl⟩

variable (nonneg : b.IsNonneg)
include nonneg

/-- A bin that is drained keeps its mass up to the fraction of its active share. -/
theorem keeps_drain {fraction : ℝ → ℝ} (proper : ∀ s, fraction s ∈ Set.Icc (0 : ℝ) 1) (floor : ℝ) :
    b.Keeps (fun i => 1 - b.weightAt floor i * fraction (b.centreAt i))
      (b.drain floor fraction) := by
  have covered := draws_drain_covered grid nonneg proper floor
  obtain ⟨kg, taken, yields, _⟩ := withdrawAll_yields rfl nonneg covered
  have leaves : (b.drain floor fraction).1.masses =
      leave b.masses (b.drainRequests floor fraction) := by
    rw [drain_eq, withdrawAll_eq fun d hd => (covered d hd).held_nonneg]
  refine ⟨sameGrid_withdrawAll _ _, fun i inside => massAt_of_getElem? ?_, ?_⟩
  · have held := getElem?_masses inside
    have asked := grid.getElem?_drainRequests floor fraction inside
    rw [leaves, getElem?_leave, held, asked, Option.map_some, Option.some.injEq]
    by_cases active : isZero (b.weightAt floor i) = true
    · rw [if_pos active, isZero_real.mp active]
      ring
    · rw [if_neg active] at asked ⊢
      have draw : Draw.IsCovered ⟨b.massAt i, _⟩ :=
        covered _ (mem_draws_iff.mpr ⟨i, held, asked⟩)
      dsimp only
      rw [clamp_of_mem draw]
      ring
  · rw [drain_eq, taken, Option.some.injEq, totalMass, totalMass, sum_real, sum_real,
      ← yields.closes]
    ring

/-- Escape takes the same fraction of the active mass of every bin. -/
theorem keeps_escape (time : Timescale ℝ) (dt : Time ℝ) (floor : ℝ) :
    b.Keeps (fun i => 1 - b.weightAt floor i * time.decayFraction dt.seconds)
      (b.escape time dt floor) := by
  have fraction := time.decayFraction_mem dt.seconds
  by_cases idle : time.decayFraction dt.seconds ≤ 0
  · rw [escape, if_pos idle]
    refine b.keeps_idle.congr fun i _ => ?_
    rw [le_antisymm idle fraction.1, mul_zero, sub_zero]
  · rw [escape, if_neg idle]
    exact grid.keeps_drain nonneg (fun _ => fraction) floor

/-- Gas drag takes a fraction of the active mass of every bin that depends on its size. -/
theorem keeps_drag (s : GasDragSettings ℝ) (density : ℝ) (dt : Time ℝ) (floor : ℝ) :
    b.Keeps (fun i => 1 - b.weightAt floor i *
        (s.timescale density (b.centreAt i)).decayFraction dt.seconds)
      (s.apply density b dt floor) := by
  by_cases active : s.enabled = true
  · rw [GasDragSettings.apply, if_pos active]
    exact grid.keeps_drain nonneg
      (fun size => (s.timescale density size).decayFraction_mem dt.seconds) floor
  · rw [GasDragSettings.apply, if_neg active]
    refine b.keeps_idle.congr fun i _ => ?_
    rw [GasDragSettings.timescale, if_neg active, Timescale.decayFraction_infinite, mul_zero,
      sub_zero]

end IsGrid

/-! ## Floors that cut no bin -/

/-- Every bin lies wholly below the floor or wholly above it. -/
def IsUncutAt (b : SizeBins ℝ) (floor : ℝ) : Prop :=
  ∀ i < b.size, b.edgeAt (i + 1) ≤ floor ∨ floor ≤ b.edgeAt i

/-- A floor at an edge of the grid cuts no bin. -/
theorem IsGrid.isUncutAt_edgeAt (grid : b.IsGrid) {k : ℕ} (inside : k ≤ b.size) :
    b.IsUncutAt (b.edgeAt k) := by
  intro i bin
  rcases Nat.lt_or_ge i k with below | above
  · exact .inl (grid.edgeAt_mono below inside)
  · exact .inr (grid.edgeAt_mono above bin.le)

/-- What a bin keeps of its mass while the active grains decay, at a rate that depends on the
size. -/
noncomputable def decayShare (b : SizeBins ℝ) (floor : ℝ) (rate : ℝ → ℝ) (seconds : ℝ) (i : ℕ) :
    ℝ :=
  if b.edgeAt (i + 1) ≤ floor then 1 else Real.exp (-(seconds * rate (b.centreAt i)))

theorem decayShare_add (b : SizeBins ℝ) (floor : ℝ) (rate : ℝ → ℝ) (seconds seconds' : ℝ) (i : ℕ) :
    b.decayShare floor rate (seconds + seconds') i =
      b.decayShare floor rate seconds i * b.decayShare floor rate seconds' i := by
  simp only [decayShare]
  split_ifs
  · rw [mul_one]
  · rw [← Real.exp_add]
    ring_nf

theorem decayShare_nonneg (b : SizeBins ℝ) (floor : ℝ) (rate : ℝ → ℝ) (seconds : ℝ) (i : ℕ) :
    0 ≤ b.decayShare floor rate seconds i := by
  simp only [decayShare]
  split_ifs
  · exact zero_le_one
  · exact (Real.exp_pos _).le

namespace SameGrid
variable (same : b.SameGrid after)
include same

theorem decayShare (floor : ℝ) (rate : ℝ → ℝ) (seconds : ℝ) :
    after.decayShare floor rate seconds = b.decayShare floor rate seconds := by
  funext i
  rw [SizeBins.decayShare, SizeBins.decayShare, same.edgeAt, same.centreAt]

theorem isUncutAt {floor : ℝ} (uncut : b.IsUncutAt floor) : after.IsUncutAt floor := by
  intro i inside
  rw [same.edgeAt, same.edgeAt]
  exact uncut i (inside.trans_eq same.size_eq)

end SameGrid

/-- A decay of the active grains leaves its share in a bin that the floor does not cut. -/
theorem IsUncutAt.share_eq {floor : ℝ} (uncut : b.IsUncutAt floor) (grid : b.IsGrid)
    {time : ℝ → Timescale ℝ} (proper : ∀ s, (time s).IsProper) {dt : ℝ} (forward : 0 ≤ dt)
    {i : ℕ} (inside : i < b.size) :
    1 - b.weightAt floor i * (time (b.centreAt i)).decayFraction dt =
      b.decayShare floor (fun s => (time s).rate) dt i := by
  rw [decayShare, grid.weightAt_eq floor inside]
  rcases uncut i inside with below | above
  · rw [if_pos below, activeWeight, if_pos below, zero_mul, sub_zero]
  · have width := (grid.edgeAt_width inside).2
    rw [if_neg (not_le.mpr (above.trans_lt width)), activeWeight_of_le width above, one_mul,
      (proper _).one_sub_decayFraction forward]

/-! ## Decays -/

/-- A process lets the active grains of a grid decay, whatever mass the bins hold, at a rate that
depends on the size. -/
def IsDecay (b : SizeBins ℝ) (floor : ℝ) (rate : ℝ → ℝ)
    (process : Time ℝ → SizeBins ℝ → SizeBins ℝ × Option ℝ) : Prop :=
  ∀ dt : Time ℝ, 0 ≤ dt.seconds → ∀ held, b.SameGrid held → held.IsNonneg →
    held.Keeps (b.decayShare floor rate dt.seconds) (process dt held)

section Decays
variable {floor : ℝ} (grid : b.IsGrid) (uncut : b.IsUncutAt floor)
include grid uncut

theorem IsUncutAt.isDecay_drag (s : GasDragSettings ℝ) (density : ℝ) :
    b.IsDecay floor (fun size => (s.timescale density size).rate)
      fun dt held => s.apply density held dt floor := by
  intro dt forward held same nonneg
  have grid' := same.isGrid grid
  rw [← same.decayShare]
  exact (grid'.keeps_drag nonneg s density dt floor).congr fun _ inside =>
    (same.isUncutAt uncut).share_eq grid' (fun size => isProper_gasDragTimescale s density size)
      forward inside

theorem IsUncutAt.isDecay_escape {time : Timescale ℝ} (proper : time.IsProper) :
    b.IsDecay floor (fun _ => time.rate) fun dt held => held.escape time dt floor := by
  intro dt forward held same nonneg
  have grid' := same.isGrid grid
  rw [← same.decayShare]
  exact (grid'.keeps_escape nonneg time dt floor).congr fun _ inside =>
    (same.isUncutAt uncut).share_eq grid' (fun _ => proper) forward inside

end Decays

namespace IsDecay
variable {floor : ℝ} {rate rate' : ℝ → ℝ}
  {process process' : Time ℝ → SizeBins ℝ → SizeBins ℝ × Option ℝ}
  (decay : b.IsDecay floor rate process) (nonneg : b.IsNonneg) {dt dt' : Time ℝ}
  (forward : 0 ≤ dt.seconds) (forward' : 0 ≤ dt'.seconds)
include decay nonneg forward

theorem keeps : b.Keeps (b.decayShare floor rate dt.seconds) (process dt b) :=
  decay dt forward b (.refl b) nonneg

include forward'

/-- Two decays that follow each other. -/
theorem inTurn (decay' : b.IsDecay floor rate' process') :
    b.Keeps (fun i => b.decayShare floor rate dt.seconds i * b.decayShare floor rate' dt'.seconds i)
      (b.inTurn (process dt) (process' dt')) := by
  have first := decay.keeps nonneg forward
  have left := first.isNonneg nonneg (b.decayShare_nonneg floor rate dt.seconds)
  exact first.inTurn (decay' dt' forward' _ first.grid left)

/-- A decay may be split in two. -/
theorem inTurn_eq : b.inTurn (process dt) (process dt') = process (dt + dt') b := by
  have whole : b.Keeps (b.decayShare floor rate (dt + dt').seconds) (process (dt + dt') b) :=
    decay.keeps nonneg (add_nonneg forward forward')
  refine (decay.inTurn nonneg forward forward' decay).unique (whole.congr fun i _ => ?_)
  exact b.decayShare_add floor rate dt.seconds dt'.seconds i

/-- Two decays may change places. -/
theorem inTurn_comm (decay' : b.IsDecay floor rate' process') :
    b.inTurn (process dt) (process' dt') = b.inTurn (process' dt') (process dt) := by
  have other := decay'.inTurn nonneg forward' forward decay
  exact (decay.inTurn nonneg forward forward' decay').unique
    (other.congr fun i _ => mul_comm _ _)

end IsDecay

/-- **Gas drag and escape can be split and can change places.** Take grains without a negative mass
and a floor that cuts no bin. Gas drag over two steps leaves the same grains and removes as much
mass as over both steps at once, so does escape, and drag before escape has the same outcome as
escape before drag. No bin refuses, and each active one keeps the exponential of its rates. -/
theorem drag_and_escape_in_turn {floor : ℝ} (grid : b.IsGrid) (nonneg : b.IsNonneg)
    (uncut : b.IsUncutAt floor) (s : GasDragSettings ℝ) (density : ℝ) {time : Timescale ℝ}
    (proper : time.IsProper) {dt dt' : Time ℝ} (forward : 0 ≤ dt.seconds)
    (forward' : 0 ≤ dt'.seconds) :
    let drag (dt : Time ℝ) (b : SizeBins ℝ) := s.apply density b dt floor
    let escape (dt : Time ℝ) (b : SizeBins ℝ) := b.escape time dt floor
    let dragged (dt : Time ℝ) :=
      b.decayShare floor (fun size => (s.timescale density size).rate) dt.seconds
    let escaped (dt : Time ℝ) := b.decayShare floor (fun _ => time.rate) dt.seconds
    (b.inTurn (drag dt) (drag dt') = drag (dt + dt') b ∧
      b.Keeps (dragged (dt + dt')) (drag (dt + dt') b)) ∧
    (b.inTurn (escape dt) (escape dt') = escape (dt + dt') b ∧
      b.Keeps (escaped (dt + dt')) (escape (dt + dt') b)) ∧
    b.inTurn (drag dt) (escape dt') = b.inTurn (escape dt') (drag dt) ∧
      b.Keeps (fun i => dragged dt i * escaped dt' i) (b.inTurn (drag dt) (escape dt')) := by
  intro drag escape dragged escaped
  have drags : b.IsDecay floor _ drag := uncut.isDecay_drag grid s density
  have escapes : b.IsDecay floor _ escape := uncut.isDecay_escape grid proper
  have both : 0 ≤ (dt + dt').seconds := add_nonneg forward forward'
  refine ⟨⟨?_, ?_⟩, ⟨?_, ?_⟩, ?_, ?_⟩
  · exact drags.inTurn_eq nonneg forward forward'
  · exact drags.keeps nonneg both
  · exact escapes.inTurn_eq nonneg forward forward'
  · exact escapes.keeps nonneg both
  · exact drags.inTurn_comm nonneg forward forward' escapes
  · exact drags.inTurn nonneg forward forward' escapes

/-- A kilogram in each of forty bins from a tenth of a micron to three metres. -/
theorem exists_filled : ∃ b : SizeBins ℝ, b.IsGrid ∧ b.IsCentred ∧ b.IsNonneg ∧
    b.masses = List.replicate 40 1 := by
  obtain ⟨empty, spaced⟩ : ∃ b : SizeBins ℝ, logSpaced ⟨1e-7⟩ ⟨3⟩ 40 ⟨3000⟩ = .ok b :=
    exists_logSpaced (by norm_num) (by norm_num) (by norm_num) (by norm_num)
  obtain ⟨grid, counted⟩ := isGrid_logSpaced spaced
  have same : empty.SameGrid { empty with masses := List.replicate 40 1 } :=
    ⟨rfl, rfl, rfl, by simp [counted]⟩
  refine ⟨_, same.isGrid grid, same.isCentred (isCentred_logSpaced spaced), ?_, rfl⟩
  intro m member
  rw [List.eq_of_mem_replicate member]
  exact zero_le_one

/-- Forty bins of a kilogram with a floor at an edge in the middle of the grid: ten and five seconds
of drag are fifteen, and five seconds of escape may come before or after ten of drag. -/
theorem exists_drag_and_escape_in_turn : ∃ b : SizeBins ℝ, b.masses = List.replicate 40 1 ∧
    let floor := b.edgeAt 20
    let drag (dt : Time ℝ) (b : SizeBins ℝ) :=
      ({ GasDragSettings.default with enabled := true } : GasDragSettings ℝ).apply 3000 b dt floor
    let escape (dt : Time ℝ) (b : SizeBins ℝ) := b.escape (.finite 100) dt floor
    b.inTurn (drag ⟨10⟩) (drag ⟨5⟩) = drag ⟨15⟩ b ∧
      b.inTurn (drag ⟨10⟩) (escape ⟨5⟩) = b.inTurn (escape ⟨5⟩) (drag ⟨10⟩) ∧
      (b.inTurn (drag ⟨10⟩) (escape ⟨5⟩)).2.isSome := by
  obtain ⟨b, grid, -, nonneg, masses⟩ := exists_filled
  have inside : 20 ≤ b.size := by simp [size, masses]
  have proper : (Timescale.finite (100 : ℝ)).IsProper := by
    rintro _ ⟨rfl⟩
    exact ⟨rfl, by norm_num⟩
  have forward : 0 ≤ (⟨10⟩ : Time ℝ).seconds := by norm_num
  have forward' : 0 ≤ (⟨5⟩ : Time ℝ).seconds := by norm_num
  have fifteen : (⟨10⟩ : Time ℝ) + ⟨5⟩ = ⟨15⟩ := Quantity.ext (by norm_num)
  obtain ⟨⟨split, _⟩, _, order, keeps⟩ := drag_and_escape_in_turn grid nonneg
    (grid.isUncutAt_edgeAt inside) { GasDragSettings.default with enabled := true } 3000 proper
    forward forward'
  rw [fifteen] at split
  exact ⟨b, masses, split, order, by rw [keeps.removed]; rfl⟩

end SizeBins
end DebrisDisk
