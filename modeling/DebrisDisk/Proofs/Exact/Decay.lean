import Mathlib
import DebrisDisk.Proofs.Driving
import DebrisDisk.Proofs.Exact.Aggregate
import DebrisDisk.Proofs.Exact.Horizon
import DebrisDisk.Proofs.Exact.Unbound

/-!
# Pure blow-out

When blow-out alone acts, on grains that are all unbound at the same force ratio, every bin has the
same blow-out time, and a step of any length leaves the fraction `exp (-dt / t)` of each bin. The
fractions of successive steps multiply, and the lengths of the steps add up to the clock, also where
the last step is cut or stretched onto the horizon. So the masses follow one exponential in time,
and the choice of the steps does not show in them.

The exact fraction has to be taken in every step, so the threshold above which it is taken is zero.

## Main results

* `RunConfig.IsPureBlowout.escaped`: what a step leaves.
* `Integrator.IsDecaying.stepOnce`: a call goes on with the decay.
* `Integrator.pure_blowout_decays`: the masses after every committed step, and the blow-out time
  that its record reports.
-/

namespace DebrisDisk
open Scalar DiagnosticsSink

/-! ## Grids above the floor -/

namespace SizeBins
variable {b : SizeBins ℝ} {floor : ℝ}

/-- Every bin lies above the floor. -/
def IsAbove (b : SizeBins ℝ) (floor : ℝ) : Prop := ∀ span ∈ b.spans, floor ≤ span.1

/-- A logarithmic grid lies above its smallest size. -/
theorem isAbove_logSpaced {low high : Length ℝ} {n : ℕ} {density : Density ℝ}
    (spaced : logSpaced low high n density = .ok b) : b.IsAbove low.metres := by
  obtain ⟨⟨positive, ascending, _⟩, _, _, edges, _⟩ := logSpaced_eq_ok spaced
  intro span member
  have edge : span.1 ∈ b.edges := (List.of_mem_zip member).1
  rw [edges] at edge
  obtain ⟨k, _, same⟩ := List.mem_map.mp edge
  have width : 0 ≤ Real.log high.metres - Real.log low.metres :=
    sub_nonneg.mpr (Real.log_le_log positive ascending.le)
  have share : (0 : ℝ) ≤ (k : ℝ) / n := by positivity
  rw [← same]
  simp only [exp_real, ln_real, ofNat_real]
  calc
    low.metres = Real.exp (Real.log low.metres) := (Real.exp_log positive).symm
    _ ≤ _ := Real.exp_le_exp.mpr (le_add_of_nonneg_right (mul_nonneg share width))

/-- A bin above the floor is wholly active. -/
theorem IsAbove.activeWeight (above : b.IsAbove floor) (grid : b.IsGrid) {span : ℝ × ℝ}
    (member : span ∈ b.spans) : DebrisDisk.activeWeight span.1 span.2 floor = 1 :=
  activeWeight_of_le (grid.widths span member).2 (above span member)

/-- Grains above the floor are all active. -/
theorem IsAbove.activeMasses (above : b.IsAbove floor) (grid : b.IsGrid) :
    b.activeMasses floor = b.masses := by
  have shaped := grid.shaped.spans
  refine List.ext_getElem (by simp [SizeBins.activeMasses, activeWeights, shaped])
    fun j _ inside => ?_
  have weight := above.activeWeight grid (List.getElem_mem (shaped ▸ inside))
  simp [SizeBins.activeMasses, activeWeights, weight]

/-- No bin above the floor is retired. -/
theorem IsAbove.retireBelow (above : b.IsAbove floor) (grid : b.IsGrid) :
    (b.retireBelow floor).1 = b := by
  have shaped := grid.shaped.spans
  have kept : (b.retireBelow floor).1.masses = b.masses := by
    refine List.ext_getElem (by simp [SizeBins.retireBelow, shaped]) fun j _ inside => ?_
    have member := List.getElem_mem (shaped ▸ inside)
    have reaches : floor < b.spans[j].2 :=
      (above _ member).trans_lt (grid.widths _ member).2
    simp [SizeBins.retireBelow, not_le.mpr reaches]
  obtain ⟨edges, centres, masses, density⟩ := b
  simpa [SizeBins.retireBelow] using kept

/-- The grains with every mass multiplied by a factor. -/
def scale (b : SizeBins ℝ) (factor : ℝ) : SizeBins ℝ :=
  { b with masses := b.masses.map (· * factor) }

@[simp] theorem spans_scale (b : SizeBins ℝ) (factor : ℝ) : (b.scale factor).spans = b.spans := rfl

@[simp] theorem scale_one (b : SizeBins ℝ) : b.scale 1 = b := by simp [scale]

@[simp] theorem scale_scale (b : SizeBins ℝ) (x y : ℝ) : (b.scale x).scale y = b.scale (x * y) := by
  simp [scale, Function.comp_def, mul_assoc]

theorem sameGrid_scale (b : SizeBins ℝ) (factor : ℝ) : b.SameGrid (b.scale factor) :=
  ⟨rfl, rfl, rfl, by simp [scale]⟩

theorem IsAbove.scale (above : b.IsAbove floor) (factor : ℝ) : (b.scale factor).IsAbove floor :=
  above

/-- The total mass is multiplied as well. -/
theorem totalMass_scale (b : SizeBins ℝ) (factor : ℝ) :
    (b.scale factor).totalMass.kilograms = b.totalMass.kilograms * factor := by
  simp [totalMass, SizeBins.scale, List.sum_map_mul_right]

end SizeBins

/-- The initial grains lie above the smallest size of the grid. -/
theorem RunConfig.isAbove_initialBins {c : RunConfig ℝ} {bins : SizeBins ℝ}
    (initial : c.initialBins = .ok bins) : bins.IsAbove c.sizes.smallest := by
  obtain ⟨empty, spaced, filled⟩ := initialBins_eq_ok initial
  have shaped := (SizeBins.isGrid_logSpaced spaced).1.shaped
  intro span member
  rw [(SizeBins.sameGrid_withPowerLaw shaped filled).spans] at member
  exact SizeBins.isAbove_logSpaced spaced span member

/-! ## The configuration -/

/-- Nothing acts but blow-out, on all grains alike and with the exact fraction in every step. -/
structure RunConfig.IsPureBlowout (c : RunConfig ℝ) (beta chi : ℝ) : Prop where
  sublimation : c.sublimation.enabled = false
  collisions : c.collisions.enabled = false
  phase : c.phase.enabled = false
  shielding : c.shielding.enabled = false
  gasDrag : c.sinks.gasDrag.enabled = false
  hydroEscape : c.sinks.hydroEscape.enabled = false
  surfaceEnergy : c.sizeFloor.surfaceEnergy.enabled = false
  depthGate : c.radiation.depthGate.enabled = false
  supply : c.supply.history = .none
  gate : c.blowout.gateMode = .none
  blowout : c.blowout.enabled = true
  layer : c.blowout.layer = .full
  mars : c.radiation.mars = true
  override : c.radiation.override = some beta
  unbound : c.radiation.threshold < beta
  efficiency : c.radiation.blowoutEfficiency = .fixed chi
  fastStep : c.blowout.fastStep.enabled = true
  limit : c.blowout.fastStep.limit = 0

/-- The step length does not matter. -/
theorem RunConfig.IsPureBlowout.withStep {c : RunConfig ℝ} {beta chi : ℝ}
    (pure : c.IsPureBlowout beta chi) (step : StepSize ℝ) :
    { c with numerics := { c.numerics with step } }.IsPureBlowout beta chi :=
  { pure with }

/-- Runs of unbound grains are pure blow-out. -/
theorem RunConfig.isPureBlowout_unbound (seconds : ℝ) :
    (RunConfig.unbound .none seconds).IsPureBlowout 1 1 where
  sublimation := rfl
  collisions := rfl
  phase := rfl
  shielding := rfl
  gasDrag := rfl
  hydroEscape := rfl
  surfaceEnergy := rfl
  depthGate := rfl
  supply := rfl
  gate := rfl
  blowout := rfl
  layer := rfl
  mars := rfl
  override := rfl
  unbound := by norm_num [RunConfig.unbound, RadiationSettings.default, circularThreshold]
  efficiency := rfl
  fastStep := rfl
  limit := rfl

/-- The blow-out time in seconds for an efficiency, which is kept between one half and two. -/
noncomputable def RunConfig.blowoutSeconds (c : RunConfig ℝ) (chi : ℝ) : ℝ :=
  clamp chi BlowoutEfficiency.least BlowoutEfficiency.greatest / c.disk.omega.radiansPerSecond

/-- Grains after some time of pure blow-out. -/
noncomputable def RunConfig.decayed (c : RunConfig ℝ) (chi : ℝ) (bins : SizeBins ℝ)
    (time : Time ℝ) : SizeBins ℝ :=
  bins.scale (Real.exp (-(time.seconds / c.blowoutSeconds chi)))

theorem RunConfig.blowoutSeconds_eq (c : RunConfig ℝ) (chi : ℝ) :
    c.blowoutSeconds chi = max (1 / 2) (min chi 2) / c.disk.omega.radiansPerSecond := by
  rw [blowoutSeconds, clamp_real] <;>
    norm_num [BlowoutEfficiency.least, BlowoutEfficiency.greatest]

theorem RunConfig.blowoutSeconds_pos {c : RunConfig ℝ} (valid : c.IsValid) (chi : ℝ) :
    0 < c.blowoutSeconds chi := by
  rw [blowoutSeconds_eq]
  exact div_pos (lt_max_of_lt_left (by norm_num)) valid.omega_pos

/-! ## One step -/

namespace RunConfig.IsPureBlowout
variable {c : RunConfig ℝ} {beta chi : ℝ} {e : Evaluation ℝ} {selector : PressureSelector ℝ}
  {state : DiskState ℝ}

/-- The floor of a grid is its smallest size. -/
theorem sizeFloorOf (pure : c.IsPureBlowout beta chi) (valid : c.IsValid) (bins : SizeBins ℝ) :
    (c.sizeFloorOf bins).size.metres = c.sizes.smallest := by
  have reaches : ¬ c.sizes.smallest < 0 := not_lt.mpr valid.sizes.1.1.le
  simp [RunConfig.sizeFloorOf, SizeFloor.resolve, SurfaceEnergySettings.limit, pure.surfaceEnergy,
    reaches]

theorem floor (pure : c.IsPureBlowout beta chi) (valid : c.IsValid)
    (h : e.IsOf c selector state) : e.floor.size.metres = c.sizes.smallest := by
  rw [h.floor, pure.sizeFloorOf valid]

/-- The disk is solid. -/
theorem solid (pure : c.IsPureBlowout beta chi) (h : e.IsOf c selector state) :
    e.phase.tag = .solid := by
  obtain ⟨pressure, phase, _⟩ := h.phase
  simp only [PhaseSettings.evaluate] at phase
  split at phase
  · simp only [pure.phase, bind_eq_ok_iff, Pure.pure, Except.pure, Except.ok.injEq, isFinite_real,
      if_true, Bool.false_eq_true, if_false, Prod.mk.injEq] at phase
    obtain ⟨_, _, same, _⟩ := phase
    rw [← same]
    norm_num [PhaseSettings.vaporShare]
  · simp at phase

/-- Blow-out acts on all grains. -/
theorem eligibleFraction (pure : c.IsPureBlowout beta chi) (h : e.IsOf c selector state) :
    e.eligibleFraction = 1 := by
  simp [h.eligibleFraction, h.depthGated, pure.depthGate, BlowoutSettings.eligibleFraction,
    pure.blowout, pure.layer, pure.solid h]

/-- Every bin has the same blow-out time. -/
theorem blowoutTimes (pure : c.IsPureBlowout beta chi) (valid : c.IsValid)
    (h : e.IsOf c selector state) :
    ∀ t ∈ e.blowoutTimes, t = .finite (c.blowoutSeconds chi) := by
  intro t member
  rw [h.blowoutTimes, h.betas, h.shielding] at member
  simp only [RadiationSettings.binBlowout, RadiationSettings.binBetas, RadiationSettings.betaAt,
    ShieldingSettings.apply, pure.mars, pure.override, pure.shielding, if_true, Bool.false_eq_true,
    if_false, mul_one, List.map_map, List.mem_map, Function.comp_apply, BetaRegime.classify,
    pure.unbound, blowoutTimescale, pure.efficiency, BlowoutEfficiency.value] at member
  obtain ⟨_, _, rfl⟩ := member
  simp only [Timescale.ofSeconds, isFinite_real, true_and]
  exact if_pos (RunConfig.blowoutSeconds_pos valid chi)

/-- A bin gives up its share for the step, which is the exact one however short the step is. -/
theorem removalOf (pure : c.IsPureBlowout beta chi) (e : Evaluation ℝ) {dt : Time ℝ} {t m : ℝ}
    (forward : 0 ≤ dt.seconds / t) (nonneg : 0 ≤ m) :
    e.removalOf c dt (.finite t) m = m * (1 - Real.exp (-(dt.seconds / t))) := by
  have ungated : gateFactor e.timescales.blow (c.blowout.gateMode.competing e.timescales) = 1 := by
    rw [pure.gate]
    exact gateFactor_infinite _
  rw [e.removalOf_eq c dt (.finite t) nonneg, ungated,
    FastStepSettings.fraction_of_limit_zero pure.fastStep pure.limit forward]
  ring

/-- Every bin gives up the same share of its mass. -/
theorem removal (pure : c.IsPureBlowout beta chi) (valid : c.IsValid)
    (h : e.IsOf c selector state) (grid : state.bins.IsGrid) (nonneg : state.bins.IsNonneg)
    (above : state.bins.IsAbove c.sizes.smallest) {dt : Time ℝ} (forward : 0 ≤ dt.seconds) :
    e.removal c dt = state.bins.masses.map
      (· * (1 - Real.exp (-(dt.seconds / c.blowoutSeconds chi)))) := by
  have ratio : 0 ≤ dt.seconds / c.blowoutSeconds chi :=
    div_nonneg forward (RunConfig.blowoutSeconds_pos valid chi).le
  refine List.ext_getElem (by simp [Evaluation.length_removal h grid.shaped]) fun j inside _ => ?_
  obtain ⟨t, m, span, time, mass, place, given⟩ :=
    (Evaluation.getElem?_removal_eq_some h).mp (List.getElem?_eq_getElem inside)
  obtain rfl := pure.blowoutTimes valid h t (List.mem_of_getElem? time)
  have weight := above.activeWeight grid (List.mem_of_getElem? place)
  rw [pure.floor valid h, weight, pure.eligibleFraction h, mul_one, mul_one,
    pure.removalOf e ratio (nonneg m (List.mem_of_getElem? mass))] at given
  obtain ⟨_, rfl⟩ := List.getElem?_eq_some_iff.mp mass
  rw [← given, List.getElem_map]

/-- A step leaves the same share of every bin. -/
theorem escaped (pure : c.IsPureBlowout beta chi) (valid : c.IsValid)
    (h : e.IsOf c selector state) (grid : state.bins.IsGrid) (nonneg : state.bins.IsNonneg)
    (above : state.bins.IsAbove c.sizes.smallest) {dt : Time ℝ} (forward : 0 ≤ dt.seconds) :
    (e.passage c dt 0 state.bins).escaped =
      state.bins.scale (Real.exp (-(dt.seconds / c.blowoutSeconds chi))) := by
  have ratio : 0 ≤ dt.seconds / c.blowoutSeconds chi :=
    div_nonneg forward (RunConfig.blowoutSeconds_pos valid chi).le
  have share := exp_neg_mem ratio
  have retired : (state.bins.retireBelow e.floor.size.metres).1 = state.bins := by
    rw [pure.floor valid h]
    exact above.retireBelow grid
  have supplied (b : SizeBins ℝ) (floor : ℝ) : (c.supply.inject b 0 floor).1 = b := by
    simp [SupplySettings.inject]
  have blownOut : (state.bins.withdrawAll ((e.removal c dt).map some)).1 =
      state.bins.scale (Real.exp (-(dt.seconds / c.blowoutSeconds chi))) := by
    rw [pure.removal valid h grid nonneg above forward, SizeBins.withdrawAll_eq fun d drawn => ?_]
    · rw [leave_map]
      refine congrArg (fun masses => { state.bins with masses })
        (List.map_congr_left fun m held => ?_)
      rw [clamp_of_mem ⟨mul_nonneg (nonneg m held) (sub_nonneg.mpr share.2),
        mul_le_of_le_one_right (nonneg m held) (sub_le_self 1 share.1)⟩]
      ring
    · obtain ⟨j, held, _⟩ := mem_draws_iff.mp drawn
      exact nonneg _ (List.mem_of_getElem? held)
  have sublimated (b : SizeBins ℝ) (floor : ℝ) : (e.sublimation.apply b dt floor).1 = b := by
    obtain ⟨pressure, _, rates⟩ := h.phase
    rw [rates]
    simp [SublimationSettings.rates, pure.sublimation, SublimationRates.inactive,
      SublimationRates.apply]
  have ground (b : SizeBins ℝ) (t : Timescale ℝ) (floor : ℝ) :
      (c.collisions.grind b t dt floor).1 = b := by
    simp [CollisionSettings.grind, pure.collisions]
  have dragged (b : SizeBins ℝ) (floor : ℝ) :
      (c.sinks.gasDrag.apply c.material.density b dt floor).1 = b := by
    simp [GasDragSettings.apply, pure.gasDrag]
  have escape : e.timescales.escape = .infinite := by
    rw [h.timescales, pure.solid h]
    rfl
  simp only [Evaluation.passage, retired, supplied, blownOut, sublimated, ground, dragged, escape]
  simp [SizeBins.escape]

/-- The aggregate blow-out time is that of every bin, as long as there is some mass. -/
theorem blow (pure : c.IsPureBlowout beta chi) (valid : c.IsValid)
    (h : e.IsOf c selector state) (grid : state.bins.IsGrid) (nonneg : state.bins.IsNonneg)
    (above : state.bins.IsAbove c.sizes.smallest) (filled : 0 < state.bins.totalMass.kilograms) :
    e.timescales.blow = .finite (c.blowoutSeconds chi) := by
  have eligible : e.eligible = state.bins.masses := by
    simp [h.eligible, pure.floor valid h, pure.eligibleFraction h, above.activeMasses grid]
  have alike := pure.blowoutTimes valid h
  have bins : exposedMass (e.blowoutTimes.zip e.eligible) = state.bins.masses.sum := by
    rw [exposedMass_of_unbound fun bin member => ?_, eligible,
      List.map_snd_zip (h.length_blowoutTimes grid.shaped).ge]
    rw [alike bin.1 (List.of_mem_zip member).1]
    exact nofun
  have exposed : 0 < exposedMass (e.blowoutTimes.zip e.eligible) := by
    rw [bins]
    simpa [SizeBins.totalMass] using filled
  obtain ⟨mean, shortest, longest, aggregate, bounds⟩ := exists_aggregateTimescale
    h.isProper_blowoutTimes (fun m held => nonneg m (eligible ▸ held)) exposed
  have only : ∀ t ∈ unboundTimes (e.blowoutTimes.zip e.eligible), t = c.blowoutSeconds chi := by
    rintro t ⟨m, member, _⟩
    exact Timescale.finite.inj (alike _ (List.of_mem_zip member).1)
  have lower := only shortest bounds.least.1
  have upper := only longest bounds.greatest.1
  rw [h.timescales]
  simp only [aggregate, le_antisymm (upper ▸ bounds.between.2) (lower ▸ bounds.between.1)]

/-- Nothing is delivered. -/
theorem delivered (pure : c.IsPureBlowout beta chi) (t dt : Time ℝ) (g : Random.Generator) :
    c.supply.sampleMass t dt g = (0, g) := by
  simp [SupplySettings.sampleMass, SupplySettings.isActive, pure.supply]

end RunConfig.IsPureBlowout

/-! ## Whole runs -/

/-- The initial grains lie on a grid above the floor, and hold some mass. -/
theorem Preparation.grains {c : RunConfig ℝ} {q : Preparation ℝ} (prepared : c.prepare = .ok q) :
    q.state.bins.IsAbove c.sizes.smallest ∧ 0 < q.state.bins.totalMass.kilograms := by
  obtain ⟨_, _, _, bins, initial, state, positive, _⟩ := RunConfig.prepare_eq_ok prepared
  rw [state]
  exact ⟨RunConfig.isAbove_initialBins initial, positive.1⟩

namespace Integrator
variable {σ : Type} {i : Integrator ℝ (Observed ℝ σ)} {c : RunConfig ℝ} {q : Preparation ℝ}
  {beta chi : ℝ}

/-- A scheduled run whose grains have decayed for as long as its clock shows. -/
structure IsDecaying (i : Integrator ℝ (Observed ℝ σ)) (c : RunConfig ℝ) (q : Preparation ℝ)
    (chi : ℝ) : Prop where
  scheduled : i.IsScheduled c q
  bins : i.state.bins = c.decayed chi q.state.bins i.state.time

/-- A step of a pure blow-out goes on with the decay. -/
theorem IsDecaying.advance (decaying : i.IsDecaying c q chi) (pure : c.IsPureBlowout beta chi)
    (live : i.lifecycle.IsLive) {s : StepInputs ℝ} (inputs : s.IsOf i) {r : Committed ℝ}
    (passed : i.advance s = .ok r) :
    r.state.bins = c.decayed chi q.state.bins r.state.time ∧
      r.record.timescales.blow = .finite (c.blowoutSeconds chi) := by
  obtain ⟨scheduled, bins⟩ := decaying
  have run := scheduled.run
  obtain ⟨valid, _⟩ := RunConfig.prepare_eq_ok run.prepared
  obtain ⟨above, positive⟩ := Preparation.grains run.prepared
  have evaluation := inputs.evaluation
  have delivered := inputs.delivered
  rw [run.config] at evaluation delivered
  rw [pure.delivered] at delivered
  obtain ⟨nothing, _⟩ := Prod.mk.inj delivered
  replace above : i.state.bins.IsAbove c.sizes.smallest := by
    rw [bins]
    exact above.scale _
  have filled : 0 < i.state.bins.totalMass.kilograms := by
    rw [bins, RunConfig.decayed, SizeBins.totalMass_scale]
    exact mul_pos positive (Real.exp_pos _)
  obtain ⟨_, _, r', passed', left, _⟩ := advance_exact run scheduled.exact inputs
  obtain rfl := Except.ok.inj (passed'.symm.trans passed)
  obtain ⟨_, _, _, _, _, _, record⟩ := Evaluation.advance_eq_ok passed
  constructor
  · rw [left, run.config, nothing, pure.escaped valid evaluation scheduled.exact.grid
      scheduled.exact.nonneg above (forward_of_inputs run inputs), bins, RunConfig.decayed,
      RunConfig.decayed, SizeBins.scale_scale, ← Real.exp_add,
      scheduled.time_of_advance live inputs passed]
    congr 2
    ring
  · rw [record]
    exact pure.blow valid evaluation scheduled.exact.grid scheduled.exact.nonneg above filled

variable [DiagnosticsSink ℝ σ]

/-- One call goes on with the decay. -/
theorem IsDecaying.stepOnce (decaying : i.IsDecaying c q chi) (pure : c.IsPureBlowout beta chi) :
    i.stepOnce.after.IsDecaying c q chi := by
  refine ⟨decaying.scheduled.stepOnce, ?_⟩
  rcases i.stepOnce_commits with ⟨_, kept⟩ | ⟨s, r, sink, lifecycle, commits, _, _, _, after⟩
  · rw [kept.state]
    exact decaying.bins
  · obtain ⟨live, s', gathered, passed⟩ := committed?_eq_some_iff.mp commits
    rw [after]
    exact (decaying.advance pure live (inputs_eq_ok gathered) passed).1

/-- Every accepted run has decayed for no time. -/
theorem isDecaying_new (chi : ℝ) {sink : σ} {start : Integrator ℝ σ}
    (accepted : Integrator.new c sink = .ok start) :
    ∃ q, start.observed.IsDecaying c q chi ∧ start.state = q.state := by
  obtain ⟨q, scheduled⟩ := isScheduled_afterRequests accepted []
  obtain ⟨p, run, state, _⟩ := isRunOf_new accepted
  obtain rfl := Except.ok.inj (run.prepared.symm.trans scheduled.run.prepared)
  obtain ⟨_, _, _, _, _, initial, _⟩ := RunConfig.prepare_eq_ok run.prepared
  have unstarted : start.state.time = 0 := by
    rw [state, initial]
    rfl
  refine ⟨p, ⟨scheduled, ?_⟩, state⟩
  change start.state.bins = _
  rw [← state, RunConfig.decayed]
  change start.state.bins = start.state.bins.scale (Real.exp (-(start.state.time.seconds / _)))
  simp [unstarted]

/-- The steps of a session of a pure blow-out. -/
theorem decayed_of_session (pure : c.IsPureBlowout beta chi) {sink : σ} {start : Integrator ℝ σ}
    (accepted : Integrator.new c sink = .ok start) (demands : List Demand) :
    ∀ r ∈ (start.session demands).trace,
      r.state.bins = c.decayed chi start.state.bins r.state.time ∧
      r.record.time = r.state.time.seconds ∧
      r.record.timescales.blow = .finite (c.blowoutSeconds chi) := by
  intro r member
  obtain ⟨q, decaying, state⟩ := isDecaying_new chi accepted
  rw [← trace_observed] at member
  obtain ⟨k, held⟩ := List.mem_iff_getElem?.mp member
  obtain ⟨j, s, kept, live, gathered, passed, _⟩ :=
    step_of_session (P := fun j => j.IsDecaying c q chi) decaying
      (fun _ kept => kept.stepOnce pure) held
  obtain ⟨bins, blow⟩ := kept.advance pure live (inputs_eq_ok gathered) passed
  obtain ⟨_, _, _, _, _, _, record⟩ := Evaluation.advance_eq_ok passed
  refine ⟨?_, by rw [record]; rfl, blow⟩
  rw [state]
  exact bins

/-- The step length is not read where the initial grains are made. -/
theorem bins_of_step {τ : Type} [DiagnosticsSink ℝ τ] {step : StepSize ℝ} {sink : σ} {sink' : τ}
    {start : Integrator ℝ σ} {start' : Integrator ℝ τ}
    (accepted : Integrator.new c sink = .ok start)
    (accepted' :
      Integrator.new { c with numerics := { c.numerics with step } } sink' = .ok start') :
    start'.state.bins = start.state.bins := by
  obtain ⟨p, run, state, _⟩ := isRunOf_new accepted
  obtain ⟨p', run', state', _⟩ := isRunOf_new accepted'
  obtain ⟨_, _, _, bins, initial, first, _⟩ := RunConfig.prepare_eq_ok run.prepared
  obtain ⟨_, _, _, bins', initial', first', _⟩ := RunConfig.prepare_eq_ok run'.prepared
  obtain rfl : bins = bins' := Except.ok.inj (initial.symm.trans initial')
  rw [state, state', first, first']
  rfl

/-- **Pure blow-out is exponential.** Take any session with an accepted run on which nothing acts
but blow-out, on all grains alike and with the exact fraction in every step. After each of its steps
every bin holds its initial mass times `exp (-time / t)`, where `t` is the blow-out efficiency,
kept between one half and two, over the orbital frequency. Each record reports that time as the
blow-out time.

So the step length does not show: a session with another accepted run, whose configuration differs
in the step length or in how it is chosen, has the same grains at the same time. -/
theorem pure_blowout_decays (pure : c.IsPureBlowout beta chi) {sink : σ} {start : Integrator ℝ σ}
    (accepted : Integrator.new c sink = .ok start) (demands : List Demand) :
    let t := max (1 / 2) (min chi 2) / c.disk.omega.radiansPerSecond
    (∀ r ∈ (start.session demands).trace,
      r.state.bins.masses =
        start.state.bins.masses.map (· * Real.exp (-(r.state.time.seconds / t))) ∧
      r.record.time = r.state.time.seconds ∧ r.record.timescales.blow = .finite t) ∧
    ∀ {τ : Type} [DiagnosticsSink ℝ τ] (step : StepSize ℝ) (sink' : τ) (start' : Integrator ℝ τ),
      Integrator.new { c with numerics := { c.numerics with step } } sink' = .ok start' →
      ∀ more : List Demand, ∀ r ∈ (start.session demands).trace,
        ∀ r' ∈ (start'.session more).trace, r.state.time = r'.state.time →
          r.state.bins = r'.state.bins := by
  rw [← RunConfig.blowoutSeconds_eq]
  intro t
  have first := decayed_of_session pure accepted demands
  refine ⟨fun r member => ?_, fun step sink' start' accepted' more r member r' member' same => ?_⟩
  · obtain ⟨bins, time, blow⟩ := first r member
    exact ⟨by rw [bins]; rfl, time, blow⟩
  · have second := decayed_of_session (pure.withStep step) accepted' more
    rw [(first r member).1, (second r' member').1, bins_of_step accepted accepted', same]
    rfl

/-- One step of 60000 seconds leaves the same grains as two of half that length. -/
theorem pure_blowout_decays_unbound :
    ∃ (start start' : Integrator ℝ (Obliging ℝ)) (r half whole : Committed ℝ),
      Integrator.new (.unbound .none 60000) { answer := .ok () } = .ok start ∧
      Integrator.new (.unbound .none 30000) { answer := .ok () } = .ok start' ∧
      (start.session [.step]).trace = [r] ∧
      (start'.session [.step, .step]).trace = [half, whole] ∧
      r.state.time.seconds = 60000 ∧
      (∃ t, r.record.timescales.blow = .finite t ∧
        r.state.bins.masses = start.state.bins.masses.map (· * Real.exp (-(60000 / t)))) ∧
      r.state.bins = whole.state.bins := by
  obtain ⟨start, r, _, accepted, one, _, time, _⟩ :=
    exists_steps_unbound .none 60000 (by norm_num) (by norm_num)
      ({ answer := .ok () } : Obliging ℝ) (fun _ => rfl) fun _ _ => rfl
  obtain ⟨start', half, whole, accepted', _, two, _, time', _⟩ :=
    exists_steps_unbound .none 30000 (by norm_num) (by norm_num)
      ({ answer := .ok () } : Obliging ℝ) (fun _ => rfl) fun _ _ => rfl
  have pure := RunConfig.isPureBlowout_unbound 60000
  obtain ⟨decays, alike⟩ := pure_blowout_decays pure accepted [.step]
  obtain ⟨masses, _, blow⟩ := decays r (by simp [one])
  refine ⟨start, start', r, half, whole, accepted, accepted', one, two, time,
    ⟨_, blow, by rw [masses, time]⟩, ?_⟩
  refine alike (.fixed 30000) _ start' accepted' [.step, .step] r (by simp [one]) whole
    (by simp [two]) (Quantity.ext ?_)
  rw [← Quantity.seconds, ← Quantity.seconds, time, time']
  norm_num

end Integrator
end DebrisDisk
