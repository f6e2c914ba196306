import DebrisDisk.Proofs.Exact.Drains

/-!
# Small grains go first

All grains shrink at one rate, so a small one loses a greater part of its mass, and the gas drags
small grains along sooner. What is left of a grain after some time is then a share that grows with
its size and falls with the time, the cube of its radius in the one case and an exponential in the
other.

A bin wholly above the floor keeps the share of a grain at its centre, and a bin that the floor cuts
loses its active share of what it would lose as a whole. So a process whose law spares larger grains
depletes the bins from the smallest up.

## Main definitions

* `SparesLarger`: a law by which larger grains keep more.
* `SizeBins.Depletes`: what a process with some law does to the bins.

## Main results

* `SparesLarger.shrinking`, `SparesLarger.dragging`: the laws of sublimation and gas drag.
* `SizeBins.smaller_grains_first`: both processes deplete the bins by their laws.
-/

namespace DebrisDisk
open Scalar

/-! ## Laws -/

/-- What grains of some size keep of their mass after some seconds: a share that grows with the size
and falls with the time. -/
structure SparesLarger (kept : (seconds size : ℝ) → ℝ) : Prop where
  share : ∀ {dt s : ℝ}, 0 ≤ dt → 0 < s → kept dt s ∈ Set.Icc (0 : ℝ) 1
  falls : ∀ {dt dt' s : ℝ}, 0 ≤ dt → dt ≤ dt' → 0 < s → kept dt' s ≤ kept dt s
  grows : ∀ {dt s s' : ℝ}, 0 ≤ dt → 0 < s → s ≤ s' → kept dt s ≤ kept dt s'

/-- Grains that shrink keep the cube of what is left of their radius. -/
theorem one_sub_shrinkLoss {s : ℝ} (positive : 0 < s) (ds : ℝ) :
    1 - shrinkLoss s ds = max (1 - ds / s) 0 ^ 3 := by
  simp only [shrinkLoss, fmax_real]
  rw [if_neg (not_le.mpr positive)]
  ring

/-- Grains that all shrink at one rate. -/
theorem SparesLarger.shrinking {rate : ℝ} (shrinks : 0 ≤ rate) :
    SparesLarger fun dt s => max (1 - rate * dt / s) 0 ^ 3 where
  share forward positive := by
    have lost := div_nonneg (mul_nonneg shrinks forward) positive.le
    have atMost : max (1 - rate * _ / _) 0 ≤ 1 := max_le (sub_le_self 1 lost) zero_le_one
    exact ⟨pow_nonneg (le_max_right _ _) 3, pow_le_one₀ (le_max_right _ _) atMost⟩
  falls _ later positive := by
    have more := div_le_div_of_nonneg_right (mul_le_mul_of_nonneg_left later shrinks) positive.le
    exact pow_le_pow_left₀ (le_max_right _ _) (max_le_max_right 0 (sub_le_sub_left more 1)) 3
  grows forward positive larger := by
    have less := div_le_div_of_nonneg_left (mul_nonneg shrinks forward) positive larger
    exact pow_le_pow_left₀ (le_max_right _ _) (max_le_max_right 0 (sub_le_sub_left less 1)) 3

theorem Timescale.IsProper.rate_nonneg {t : Timescale ℝ} (proper : t.IsProper) : 0 ≤ t.rate := by
  cases t with
  | infinite => exact le_rfl
  | finite s => exact (one_div_pos.mpr (proper s rfl).2).le

/-- The gas drags small grains along at a greater rate. -/
theorem GasDragSettings.rate_timescale_anti (g : GasDragSettings ℝ) (density : ℝ) {s s' : ℝ}
    (positive : 0 < s) (larger : s ≤ s') :
    (g.timescale density s').rate ≤ (g.timescale density s).rate := by
  have time (size : ℝ) : density * size / (g.gasDensity * g.soundSpeed) =
      density / (g.gasDensity * g.soundSpeed) * size := by ring
  simp only [timescale, gasDragTimescale, Timescale.ofSeconds, time, isFinite_real, true_and]
  by_cases active : g.enabled = true
  · rw [if_pos active, if_pos active]
    set factor := density / (g.gasDensity * g.soundSpeed) with hfactor
    rcases lt_or_ge 0 factor with acts | idle
    · have acts' := mul_pos acts positive
      rw [if_pos acts', if_pos (mul_pos acts (positive.trans_le larger))]
      exact one_div_le_one_div_of_le acts' (mul_le_mul_of_nonneg_left larger acts.le)
    · have idle' (size : ℝ) (positive : 0 < size) : ¬ 0 < factor * size :=
        not_lt.mpr (mul_nonpos_of_nonpos_of_nonneg idle positive.le)
      rw [if_neg (idle' s positive), if_neg (idle' s' (positive.trans_le larger))]
  · rw [if_neg active, if_neg active]

/-- Grains that the gas drags along. -/
theorem SparesLarger.dragging (g : GasDragSettings ℝ) (density : ℝ) :
    SparesLarger fun dt s => Real.exp (-(dt * (g.timescale density s).rate)) := by
  have rate (s : ℝ) := (isProper_gasDragTimescale g density s).rate_nonneg
  refine ⟨fun forward _ => ?_, fun _ later _ => ?_, fun forward positive larger => ?_⟩
  · exact exp_neg_mem (mul_nonneg forward (rate _))
  · exact Real.exp_le_exp.mpr (neg_le_neg (mul_le_mul_of_nonneg_right later (rate _)))
  · exact Real.exp_le_exp.mpr (neg_le_neg
      (mul_le_mul_of_nonneg_left (g.rate_timescale_anti density positive larger) forward))

/-! ## Bins -/

namespace SizeBins
variable {b : SizeBins ℝ}

/-- The share of its mass that a bin has kept. -/
noncomputable def keptAt (b after : SizeBins ℝ) (i : ℕ) : ℝ := after.massAt i / b.massAt i

/-- What a process does to the bins in a time above a floor, when the grains of some size keep the
share `kept` of their mass. -/
structure Depletes (b : SizeBins ℝ) (process : Time ℝ → (floor : ℝ) → SizeBins ℝ × Option ℝ)
    (kept : (seconds size : ℝ) → ℝ) : Prop where
  grid : ∀ dt floor, 0 ≤ dt.seconds → b.SameGrid (process dt floor).1
  removed : ∀ dt floor, 0 ≤ dt.seconds → (process dt floor).2 =
    some (b.totalMass.kilograms - (process dt floor).1.totalMass.kilograms)
  /-- A bin wholly above the floor keeps what grains at its centre keep. -/
  whole : ∀ dt floor, 0 ≤ dt.seconds → ∀ i < b.size, floor ≤ b.edgeAt i →
    (process dt floor).1.massAt i = b.massAt i * kept dt.seconds (b.centreAt i)
  below : ∀ dt floor, 0 ≤ dt.seconds → ∀ i < b.size, b.edgeAt (i + 1) ≤ floor →
    (process dt floor).1.massAt i = b.massAt i
  /-- A bin loses its active share of what it would lose wholly above the floor. -/
  cut : ∀ dt floor, 0 ≤ dt.seconds → ∀ i < b.size, ∀ lower ≤ b.edgeAt i,
    b.massAt i - (process dt floor).1.massAt i =
      b.weightAt floor i * (b.massAt i - (process dt lower).1.massAt i)
  share : ∀ dt floor, 0 ≤ dt.seconds → ∀ i < b.size, 0 < b.massAt i →
    b.keptAt (process dt floor).1 i ∈ Set.Icc (0 : ℝ) 1
  falls : ∀ dt dt' floor, 0 ≤ dt.seconds → dt.seconds ≤ dt'.seconds → ∀ i < b.size,
    0 < b.massAt i → b.keptAt (process dt' floor).1 i ≤ b.keptAt (process dt floor).1 i
  /-- Of two bins above the floor, the one with smaller grains keeps no more. -/
  smallest : ∀ dt floor, 0 ≤ dt.seconds → ∀ i j, i < j → j < b.size → floor ≤ b.edgeAt i →
    0 < b.massAt i → 0 < b.massAt j →
      b.keptAt (process dt floor).1 i ≤ b.keptAt (process dt floor).1 j

theorem Keeps.keptAt_eq {share : ℕ → ℝ} {outcome : SizeBins ℝ × Option ℝ}
    (h : b.Keeps share outcome) {i : ℕ} (inside : i < b.size) (held : 0 < b.massAt i) :
    b.keptAt outcome.1 i = share i := by
  rw [keptAt, h.bins i inside, mul_div_cancel_left₀ _ held.ne']

section Law
variable {process : Time ℝ → ℝ → SizeBins ℝ × Option ℝ} {kept : ℝ → ℝ → ℝ}
  (grid : b.IsGrid) (centred : b.IsCentred) (law : SparesLarger kept)
  (keeps : ∀ (dt : Time ℝ) floor, 0 ≤ dt.seconds → b.Keeps
    (fun i => 1 - b.weightAt floor i * (1 - kept dt.seconds (b.centreAt i))) (process dt floor))
include grid centred law keeps

/-- A process that drains the active grains by a law which spares larger ones. -/
theorem depletes_of_keeps : b.Depletes process kept := by
  have weight_whole {floor : ℝ} {i : ℕ} (inside : i < b.size) (above : floor ≤ b.edgeAt i) :
      b.weightAt floor i = 1 := by
    rw [grid.weightAt_eq floor inside, activeWeight_of_le (grid.edgeAt_width inside).2 above]
  constructor
  case grid => exact fun dt floor forward => (keeps dt floor forward).grid
  case removed => exact fun dt floor forward => (keeps dt floor forward).removed
  case whole =>
    intro dt floor forward i inside above
    rw [(keeps dt floor forward).bins i inside, weight_whole inside above]
    ring
  case below =>
    intro dt floor forward i inside below
    rw [(keeps dt floor forward).bins i inside, grid.weightAt_eq floor inside, activeWeight,
      if_pos below]
    ring
  case cut =>
    intro dt floor forward i inside lower above
    rw [(keeps dt floor forward).bins i inside, (keeps dt lower forward).bins i inside,
      weight_whole inside above]
    ring
  case share =>
    intro dt floor forward i inside held
    rw [(keeps dt floor forward).keptAt_eq inside held]
    have weight := grid.weightAt_mem floor inside
    have left := law.share forward (grid.centreAt_pos centred inside)
    have lost : 1 - kept dt.seconds (b.centreAt i) ∈ Set.Icc (0 : ℝ) 1 :=
      ⟨sub_nonneg.mpr left.2, sub_le_self 1 left.1⟩
    exact ⟨sub_nonneg.mpr (mul_le_one₀ weight.2 lost.1 lost.2),
      sub_le_self 1 (mul_nonneg weight.1 lost.1)⟩
  case falls =>
    intro dt dt' floor forward later i inside held
    rw [(keeps dt' floor (forward.trans later)).keptAt_eq inside held,
      (keeps dt floor forward).keptAt_eq inside held]
    have less := law.falls forward later (grid.centreAt_pos centred inside)
    exact sub_le_sub_left (mul_le_mul_of_nonneg_left (sub_le_sub_left less 1)
      (grid.weightAt_mem floor inside).1) 1
  case smallest =>
    intro dt floor forward i j before inside above held held'
    have inside' := before.trans inside
    rw [(keeps dt floor forward).keptAt_eq inside' held,
      (keeps dt floor forward).keptAt_eq inside held', weight_whole inside' above,
      weight_whole inside (above.trans (grid.edgeAt_mono before.le inside.le))]
    have more := law.grows forward (grid.centreAt_pos centred inside')
      (grid.centreAt_mono centred before.le inside)
    linarith

end Law

/-- Sublimation shrinks the grains of every bin by the same length. -/
theorem IsGrid.keeps_sublimation (grid : b.IsGrid) (centred : b.IsCentred) (nonneg : b.IsNonneg)
    {r : SublimationRates ℝ} (shrinks : 0 ≤ r.shrinkRate) {dt : Time ℝ}
    (forward : 0 ≤ dt.seconds) (floor : ℝ) :
    b.Keeps (fun i => 1 - b.weightAt floor i *
        (1 - max (1 - r.shrinkRate * dt.seconds / b.centreAt i) 0 ^ 3))
      (r.apply b dt floor) := by
  by_cases idle : r.shrinkRate ≤ 0
  · rw [SublimationRates.apply, if_pos idle]
    refine b.keeps_idle.congr fun i _ => ?_
    rw [le_antisymm idle shrinks, zero_mul, zero_div, sub_zero, max_eq_left zero_le_one]
    ring
  · rw [SublimationRates.apply, if_neg idle]
    have shortens : 0 ≤ r.shrinkRate * dt.seconds := mul_nonneg shrinks forward
    refine (grid.keeps_drain nonneg (fun _ => shrinkLoss_mem shortens) floor).congr
      fun i inside => ?_
    rw [← one_sub_shrinkLoss (grid.centreAt_pos centred inside), sub_sub_cancel]

/-- **Smaller grains are depleted first.** Sublimation and gas drag leave the bins below the floor
alone. Above it every bin keeps a share of its mass that falls with the time and is no greater for
smaller grains: the cube of what is left of the radius, or the exponential of a decay at a rate that
falls with the size. A bin that the floor cuts loses its active share of what it would lose as a
whole, and what a process returns is what the bins have lost. -/
theorem smaller_grains_first (grid : b.IsGrid) (centred : b.IsCentred) (nonneg : b.IsNonneg)
    {r : SublimationRates ℝ} (shrinks : 0 ≤ r.shrinkRate) (g : GasDragSettings ℝ) (density : ℝ) :
    b.Depletes (fun dt floor => r.apply b dt floor)
      (fun dt size => max (1 - r.shrinkRate * dt / size) 0 ^ 3) ∧
    b.Depletes (fun dt floor => g.apply density b dt floor)
      (fun dt size => Real.exp (-(dt * (g.timescale density size).rate))) := by
  constructor
  · refine depletes_of_keeps grid centred (.shrinking shrinks) fun dt floor forward => ?_
    exact grid.keeps_sublimation centred nonneg shrinks forward floor
  · refine depletes_of_keeps grid centred (.dragging g density) fun dt floor forward => ?_
    refine (grid.keeps_drag nonneg g density dt floor).congr fun i _ => ?_
    rw [← (isProper_gasDragTimescale g density _).one_sub_decayFraction forward, sub_sub_cancel]

/-- Forty bins of a kilogram with a floor that cuts the eleventh: after ten seconds in which grains
shrink by a nanometre a second, and after ten seconds of gas drag, the bin above it has kept no more
of its mass than one of larger grains, and the smallest bins are left alone. -/
theorem exists_smaller_grains_first : ∃ b : SizeBins ℝ, b.masses = List.replicate 40 1 ∧
    b.centreAt 10 ∈ Set.Ioo (b.edgeAt 10) (b.edgeAt 11) ∧
    let shrunk := ({ SublimationRates.inactive with shrinkRate := 1e-9 } :
      SublimationRates ℝ).apply b ⟨10⟩ (b.centreAt 10)
    let dragged := ({ GasDragSettings.default with enabled := true } :
      GasDragSettings ℝ).apply 3000 b ⟨10⟩ (b.centreAt 10)
    b.keptAt shrunk.1 11 ≤ b.keptAt shrunk.1 30 ∧ shrunk.1.massAt 5 = b.massAt 5 ∧
      b.keptAt dragged.1 11 ≤ b.keptAt dragged.1 30 ∧ dragged.1.massAt 5 = b.massAt 5 := by
  obtain ⟨b, grid, centred, nonneg, masses⟩ := exists_filled
  have counted : b.size = 40 := by simp [size, masses]
  have held : ∀ i < 40, 0 < b.massAt i := by
    intro i inside
    have member := List.mem_of_getElem? (IsGrid.getElem?_masses (inside.trans_eq counted.symm))
    rw [masses] at member
    rw [List.eq_of_mem_replicate member]
    exact zero_lt_one
  have shrinks : 0 ≤ ({ SublimationRates.inactive with shrinkRate := 1e-9 } :
      SublimationRates ℝ).shrinkRate := by norm_num
  have forward : 0 ≤ (⟨10⟩ : Time ℝ).seconds := by norm_num
  have cut := grid.centreAt_mem centred (i := 10) (by omega)
  have below : b.edgeAt 6 ≤ b.centreAt 10 :=
    (grid.edgeAt_mono (by omega) (by omega)).trans cut.1.le
  obtain ⟨shrinking, dragging⟩ := smaller_grains_first grid centred nonneg shrinks
    { GasDragSettings.default with enabled := true } 3000
  refine ⟨b, masses, cut, ?_, ?_, ?_, ?_⟩
  · exact shrinking.smallest ⟨10⟩ _ forward 11 30 (by omega) (by omega) cut.2.le
      (held 11 (by omega)) (held 30 (by omega))
  · exact shrinking.below ⟨10⟩ _ forward 5 (by omega) below
  · exact dragging.smallest ⟨10⟩ _ forward 11 30 (by omega) (by omega) cut.2.le
      (held 11 (by omega)) (held 30 (by omega))
  · exact dragging.below ⟨10⟩ _ forward 5 (by omega) below

end SizeBins
end DebrisDisk
