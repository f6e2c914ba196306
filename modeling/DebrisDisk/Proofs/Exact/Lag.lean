import Mathlib
import DebrisDisk.Proofs.Exact.Decay
import DebrisDisk.Proofs.Exact.Exposure
import DebrisDisk.Proofs.Exact.Opacity
import DebrisDisk.Proofs.Exact.Retirement

/-!
# The optical depths that a step commits

A step evaluates the optical depths of the disk before it moves any mass, and commits these. So the
optical depths of a state are those of its own grains only at the opening of a run. After a step
they are those of the grains before it, and so are the active surface density and the optical depths
in the record of the step, next to the mass and the surface density after it. Where a step removes
mass, the active surface density of its record can exceed the whole one.

## Main results

* `Integrator.optical_depths_lag`: which grains the committed and the reported values belong to.
* `Integrator.optical_depths_lag_unbound`: a step after which they belong to different grains.
-/

namespace DebrisDisk
open Scalar DiagnosticsSink

/-- The surface density of the grains above the committed floor. -/
noncomputable def RunConfig.committedSigma (c : RunConfig ℝ) (state : DiskState ℝ) : ℝ :=
  (state.bins.activeSummary state.floor.metres).mass / c.disk.area

namespace Integrator
variable {σ : Type} {c : RunConfig ℝ}

/-- A step commits and reports the optical depths of the grains from which it starts. -/
theorem IsFloored.depths_of_advance {i : Integrator ℝ (Observed ℝ σ)} {opened : SizeBins ℝ}
    {p : Preparation ℝ} (floored : i.IsFloored c opened) (run : i.IsRunOf c p) (exact : i.IsExact)
    {s : StepInputs ℝ} (inputs : s.IsOf i) {r : Committed ℝ} (passed : i.advance s = .ok r) :
    r.state.floor = i.state.floor ∧ r.state.tau = c.committedTau i.state ∧
      r.state.pathDepth = c.shielding.lineOfSight.factor * r.state.tau ∧
      r.record.disk.tau = r.state.tau ∧ r.record.disk.pathDepth = r.state.pathDepth ∧
      r.record.disk.activeSigma = c.committedSigma i.state ∧
      r.record.disk.sigma = r.state.totalMass.kilograms / c.disk.area ∧
      c.committedSigma r.state ≤ r.record.disk.sigma := by
  obtain ⟨valid, _⟩ := RunConfig.prepare_eq_ok run.prepared
  have evaluation := inputs.evaluation
  rw [run.config] at evaluation
  have floor : i.state.floor = s.evaluation.floor.size := by
    rw [(floored.evaluation run inputs).1, floored.floor]
  have committed := exact.commit run inputs passed
  obtain ⟨_, _, _, _, _, state, record⟩ := Evaluation.advance_eq_ok passed
  have sigma : r.record.disk.sigma = r.state.totalMass.kilograms / c.disk.area := by
    rw [record, run.config]
    rfl
  refine ⟨by rw [state, floor]; rfl, ?_, ?_, by rw [record]; rfl, by rw [record]; rfl, ?_, sigma,
    ?_⟩
  · rw [state, ← evaluation.tau_of_floor floor]
    rfl
  · rw [state]
    change s.evaluation.shielding.pathDepth = _ * s.evaluation.tau
    rw [evaluation.shielding, ShieldingSettings.pathDepth_apply]
  · rw [record]
    change s.evaluation.activeSigma = _
    rw [evaluation.activeSigma, evaluation.active, ← floor]
    rfl
  · rw [sigma]
    exact div_le_div_of_nonneg_right
      (committed.grid.mass_activeSummary_le committed.nonneg _) valid.area_pos.le

/-- **The committed optical depths lag behind.** The state at the opening of an accepted run has the
optical depths of its own grains. Take then any step of any session with the run. It leaves the
floor where it was. The state that it commits has the optical depth of the grains before the step,
with the depth along the path in proportion, and its record repeats both. The active surface density
of the record is also that before the step, while its surface density is that of the mass after the
step, which the grains that are active then do not exceed. -/
theorem optical_depths_lag [DiagnosticsSink ℝ σ] {sink : σ} {start : Integrator ℝ σ}
    (accepted : Integrator.new c sink = .ok start) (demands : List Demand) :
    let steps := (start.session demands).trace
    let factor := c.shielding.lineOfSight.factor
    (start.state.tau = c.committedTau start.state ∧
      start.state.pathDepth = factor * start.state.tau) ∧
    ∀ (k : ℕ) (r : Committed ℝ) (before : DiskState ℝ), steps[k]? = some r →
      (start.state :: steps.map (·.state))[k]? = some before →
      let after := r.state
      let disk := r.record.disk
      after.floor = before.floor ∧
      after.tau = c.committedTau before ∧ after.pathDepth = factor * after.tau ∧
      disk.tau = after.tau ∧ disk.pathDepth = after.pathDepth ∧
      disk.activeSigma = c.committedSigma before ∧
      disk.sigma = after.totalMass.kilograms / c.disk.area ∧
      c.committedSigma after ≤ disk.sigma := by
  intro steps factor
  obtain ⟨p, run, state, books⟩ := isRunOf_new accepted
  refine ⟨?_, fun k r before held place => ?_⟩
  · obtain ⟨_, _, _, bins, _, initial, _⟩ := RunConfig.prepare_eq_ok run.prepared
    rw [state, initial]
    refine ⟨?_, ShieldingSettings.pathDepth_apply _ _⟩
    simp only [RunConfig.initialState, RunConfig.committedTau, mul_div_assoc]
  · obtain ⟨_, _, floored⟩ := isFloored_afterRequests accepted []
    have exact := isExact_of_start run state books
    have shaped := exact.grid.shaped
    change (start.session demands).trace[k]? = some r at held
    change (start.state :: (start.session demands).trace.map (·.state))[k]? = some before at place
    rw [← trace_observed] at held place
    obtain ⟨j, s, ⟨kept, exact, floored⟩, _, gathered, passed, stood⟩ := step_of_session
      (P := fun j => j.IsRunOf c p ∧ j.IsExact ∧ j.IsFloored c start.state.bins)
      ⟨run.observed, ⟨exact.grid, exact.nonneg, exact.closed⟩, floored⟩
      (fun _ h => ⟨h.1.stepOnce, h.2.1.stepOnce h.1, h.2.2.stepOnce shaped h.1⟩) held
    obtain rfl := Option.some.inj (place.symm.trans stood)
    exact floored.depths_of_advance kept exact (inputs_eq_ok gathered) passed

end Integrator

/-! ## A step that removes mass -/

/-- Weights that are positive leave a positive sum. -/
theorem sum_zipWith_mul_pos {f : ℝ → ℝ} {ms ss : List ℝ} (long : ms.length ≤ ss.length)
    (nonneg : ∀ m ∈ ms, 0 ≤ m) (positive : ∀ s ∈ ss, 0 < f s) (filled : 0 < ms.sum) :
    0 < (List.zipWith (fun m s => m * f s) ms ss).sum := by
  induction ms generalizing ss with
  | nil => simp at filled
  | cons m ms ih =>
    rcases ss with _ | ⟨s, ss⟩
    · simp at long
    · obtain ⟨first, later⟩ := List.forall_mem_cons.mp nonneg
      obtain ⟨weight, weights⟩ := List.forall_mem_cons.mp positive
      have rest : ms.length ≤ ss.length := by simpa using long
      rw [List.zipWith_cons_cons, List.sum_cons]
      rcases first.eq_or_lt with rfl | some
      · rw [List.sum_cons, zero_add] at filled
        rw [zero_mul, zero_add]
        exact ih rest later weights filled
      · refine add_pos_of_pos_of_nonneg (mul_pos some weight) (List.sum_nonneg fun x member => ?_)
        obtain ⟨j, held⟩ := List.mem_iff_getElem?.mp member
        obtain ⟨m', s', mass, size, rfl⟩ := List.getElem?_zipWith_eq_some.mp held
        exact mul_nonneg (later _ (List.mem_of_getElem? mass))
          (weights _ (List.mem_of_getElem? size)).le

namespace SizeBins
variable {b : SizeBins ℝ} {floor : ℝ}

/-- The cross-section of all grains in square metres. -/
noncomputable def crossSection (b : SizeBins ℝ) : ℝ :=
  (List.zipWith (fun m s => m * b.opacity s) b.masses b.centres).sum

theorem crossSection_scale (b : SizeBins ℝ) (factor : ℝ) :
    (b.scale factor).crossSection = b.crossSection * factor := by
  have each : (fun m s => m * factor * (b.scale factor).opacity s) =
      fun m s => m * b.opacity s * factor := by
    funext m s
    exact mul_right_comm m factor (b.opacity s)
  have total := List.sum_map_mul_right
    (List.zipWith (fun m s => m * b.opacity s) b.masses b.centres) (fun x => x) factor
  rw [List.map_id', List.map_zipWith] at total
  simp only [crossSection, scale, List.zipWith_map_left] at each ⊢
  rw [each, total]

/-- Filled bins have a positive cross-section. -/
theorem crossSection_pos (grid : b.IsGrid) (nonneg : b.IsNonneg) (centred : b.IsCentred)
    (filled : 0 < b.totalMass.kilograms) : 0 < b.crossSection := by
  refine sum_zipWith_mul_pos (by rw [grid.shaped.centres]) nonneg (fun s member => ?_)
    (by simpa [totalMass] using filled)
  have dense := centred.dense
  have size := grid.pos_of_mem_centres centred member
  simp only [opacity]
  positivity

/-- Grains above the floor count in full. -/
theorem IsAbove.activeSummary (above : b.IsAbove floor) (grid : b.IsGrid)
    (filled : 0 < b.totalMass.kilograms) :
    (b.activeSummary floor).mass = b.totalMass.kilograms ∧
      (b.activeSummary floor).kappa * (b.activeSummary floor).mass = b.crossSection := by
  replace filled : 0 < b.masses.sum := by simpa [totalMass] using filled
  simp only [SizeBins.activeSummary, above.activeMasses grid, sum_real, filled, if_true,
    totalMass, crossSection]
  exact ⟨trivial, div_mul_cancel₀ _ filled.ne'⟩

end SizeBins

/-- The initial grains have a positive cross-section. -/
theorem Preparation.crossSection_pos {c : RunConfig ℝ} {q : Preparation ℝ}
    (prepared : c.prepare = .ok q) : 0 < q.state.bins.crossSection := by
  obtain ⟨valid, _, _, bins, initial, state, filled, _⟩ := RunConfig.prepare_eq_ok prepared
  obtain ⟨grid, nonneg⟩ := RunConfig.initialBins_exact valid initial
  obtain ⟨empty, spaced, power⟩ := RunConfig.initialBins_eq_ok initial
  have same := SizeBins.sameGrid_withPowerLaw (SizeBins.isGrid_logSpaced spaced).1.shaped power
  rw [state]
  exact SizeBins.crossSection_pos grid nonneg (same.isCentred (SizeBins.isCentred_logSpaced spaced))
    filled.1

/-- The optical depth and the surface density of grains above the committed floor. -/
theorem RunConfig.committed_of_above (c : RunConfig ℝ) (state : DiskState ℝ)
    (above : state.bins.IsAbove state.floor.metres) (grid : state.bins.IsGrid)
    (filled : 0 < state.bins.totalMass.kilograms) :
    c.committedTau state = state.bins.crossSection / c.disk.area ∧
      c.committedSigma state = state.bins.totalMass.kilograms / c.disk.area := by
  obtain ⟨mass, cross⟩ := above.activeSummary grid filled
  exact ⟨congrArg (· / c.disk.area) cross, congrArg (· / c.disk.area) mass⟩

/-- A step of a pure blow-out commits and reports the optical depth from before it: that of its own
grains is smaller, and the active surface density of its record exceeds the whole one. -/
theorem Integrator.optical_depths_lag_unbound :
    ∃ (start : Integrator ℝ (Obliging ℝ)) (r : Committed ℝ),
      Integrator.new (.unbound .none 60000) { answer := .ok () } = .ok start ∧
      (start.session [.step]).trace = [r] ∧
      r.state.tau = (RunConfig.unbound .none 60000).committedTau start.state ∧
      (RunConfig.unbound .none 60000).committedTau r.state < r.state.tau ∧
      r.record.disk.sigma < r.record.disk.activeSigma := by
  obtain ⟨start, r, _, accepted, one, _, time, _⟩ :=
    exists_steps_unbound .none 60000 (by norm_num) (by norm_num)
      ({ answer := .ok () } : Obliging ℝ) (fun _ => rfl) fun _ _ => rfl
  have pure := RunConfig.isPureBlowout_unbound 60000
  set c := RunConfig.unbound .none 60000
  obtain ⟨p, run, opened, books⟩ := isRunOf_new accepted
  obtain ⟨valid, _, _, bins, _, initial, _⟩ := RunConfig.prepare_eq_ok run.prepared
  have grid := (isExact_of_start run opened books).grid
  have cross := Preparation.crossSection_pos run.prepared
  obtain ⟨above, filled⟩ := Preparation.grains run.prepared
  rw [← opened] at cross above filled initial
  -- The step leaves the fraction `left` of every bin.
  obtain ⟨decayed, _⟩ := decayed_of_session pure accepted [.step] r (by simp [one])
  set left := Real.exp (-(r.state.time.seconds / c.blowoutSeconds 1)) with share
  replace decayed : r.state.bins = start.state.bins.scale left := decayed
  have less : left < 1 := by
    rw [share, time, Real.exp_lt_one_iff, neg_lt_zero]
    exact div_pos (by norm_num) (RunConfig.blowoutSeconds_pos valid 1)
  obtain ⟨_, lags⟩ := optical_depths_lag accepted [.step]
  obtain ⟨floor, tau, _, _, _, active, sigma, _⟩ := lags 0 r start.state (by simp [one]) rfl
  have lowest : start.state.floor.metres = c.sizes.smallest := by
    rw [initial]
    exact pure.sizeFloorOf valid bins
  obtain ⟨tauBefore, sigmaBefore⟩ := c.committed_of_above start.state (lowest ▸ above) grid filled
  have remains : 0 < (start.state.bins.scale left).totalMass.kilograms := by
    rw [SizeBins.totalMass_scale]
    exact mul_pos filled (Real.exp_pos _)
  obtain ⟨tauAfter, _⟩ := c.committed_of_above r.state
    (by rw [decayed, floor, lowest]; exact above.scale left)
    (by rw [decayed]; exact (SizeBins.sameGrid_scale _ left).isGrid grid)
    (by rw [decayed]; exact remains)
  refine ⟨start, r, accepted, one, tau, ?_, ?_⟩
  · rw [tau, tauBefore, tauAfter, decayed, SizeBins.crossSection_scale]
    exact div_lt_div_of_pos_right (mul_lt_of_lt_one_right cross less) valid.area_pos
  · rw [sigma, active, sigmaBefore, DiskState.totalMass, decayed, SizeBins.totalMass_scale]
    exact div_lt_div_of_pos_right (mul_lt_of_lt_one_right filled less) valid.area_pos

end DebrisDisk
