import Mathlib
import DebrisDisk.Proofs.Exact.Enduring

/-!
# What blow-out can take

Blow-out acts on the whole active column, on the skin of it that has an optical depth of one along
the line of sight, or on nothing. A record tells which: the gate on the optical depth, the phase and
the depth of the path give the exposed fraction of the column, which is one over the depth once the
skin is thinner than the column. What is removed in a step is a fraction of what is exposed, times
the share of blow-out in the combined rate.

## Main definitions

* `RunConfig.exposure`: the exposed fraction of the active column.

## Main results

* `Evaluation.IsOf.eligibleFraction_le_exposure`: blow-out acts on what is exposed.
* `Evaluation.IsOf.sum_removal_le_exposure`, `Evaluation.IsOf.sum_removal_le_skin`: what a step
  removes at most.
* `Integrator.blowout_of_exposure`: what the records of a run report.
-/

namespace DebrisDisk
open Scalar DiagnosticsSink

/-! ## Exposure -/

/-- The fraction of the active column that is exposed to blow-out, which depends on whether the gate
on the optical depth is closed, on the phase, and on the optical depth along the path. -/
noncomputable def RunConfig.exposure (c : RunConfig ℝ) (depthGated : Bool) (phase : PhaseTag)
    (pathDepth : ℝ) : ℝ :=
  if c.blowout.enabled = false ∨ depthGated = true ∨
      (c.blowout.target = .solidOnly ∧ phase = .vapor) then 0
  else if c.blowout.layer = .full ∨ c.shielding.enabled = false then 1
  else if 1 < pathDepth then 1 / pathDepth
  else 1

theorem RunConfig.exposure_nonneg (c : RunConfig ℝ) (depthGated : Bool) (phase : PhaseTag)
    (pathDepth : ℝ) : 0 ≤ c.exposure depthGated phase pathDepth := by
  simp only [exposure]
  split_ifs with _ _ deep
  · exact le_rfl
  · exact zero_le_one
  · exact div_nonneg zero_le_one (zero_le_one.trans deep.le)
  · exact zero_le_one

/-! ## Skins -/

namespace ShieldingSettings
variable {s : ShieldingSettings ℝ} {i : ShieldingInputs ℝ}

/-- The depth of the path is the vertical one times the factor of the path. -/
theorem pathDepth_apply (s : ShieldingSettings ℝ) (i : ShieldingInputs ℝ) :
    (s.apply i).pathDepth = s.lineOfSight.factor * i.tau := by
  simp only [apply]
  split
  · cases s.order <;> rfl
  · rfl

/-- Without shielding the whole column belongs to the skin. -/
theorem skin_apply_of_disabled (off : s.enabled = false) : (s.apply i).skin = .unbounded := by
  simp [apply, off]

/-- The skin has an optical depth of one along the path. -/
theorem skin_apply (on : s.enabled = true) :
    (s.apply i).skin = skin (s.lineOfSight.factor * i.kappa) := by
  simp only [apply, on, if_true]
  cases s.order <;> rfl

/-- A skin is finite only for a positive opacity, and then has an optical depth of one. -/
theorem skin_eq_column_iff {kappa sigma : ℝ} :
    skin kappa = .column sigma ↔ 0 < kappa ∧ 1 / kappa = sigma := by
  simp only [skin]
  split_ifs with positive
  · simp [positive]
  · simp [positive]

/-- The share of a skin holds no more than the skin. -/
theorem share_mul_le {sigma : ℝ} (active : ℝ) (nonneg : 0 ≤ sigma) :
    (SkinColumn.column sigma).share active * active ≤ sigma := by
  simp only [SkinColumn.share, isFinite_real, Bool.true_eq_false, false_and, if_false]
  split_ifs with some
  · have ratio : 0 ≤ sigma / active := div_nonneg nonneg some.le
    rw [clamp_real zero_le_one, max_eq_right (le_min ratio zero_le_one)]
    calc
      min (sigma / active) 1 * active ≤ sigma / active * active :=
        mul_le_mul_of_nonneg_right (min_le_left _ _) some.le
      _ = sigma := div_mul_cancel₀ _ some.ne'
  · rwa [zero_mul]

/-- The skin is thinner than the column once the depth of the path exceeds one. -/
theorem skin_lt_iff (on : s.enabled = true) (column : i.tau = i.kappa * i.sigma)
    (nonneg : 0 ≤ i.sigma) :
    (∃ sigma, (s.apply i).skin = .column sigma ∧ sigma < i.sigma) ↔
      1 < (s.apply i).pathDepth := by
  have depth : (s.apply i).pathDepth = s.lineOfSight.factor * i.kappa * i.sigma := by
    rw [pathDepth_apply, column, mul_assoc]
  simp only [skin_apply on, skin_eq_column_iff, depth]
  constructor
  · rintro ⟨_, ⟨positive, rfl⟩, thin⟩
    rwa [div_lt_iff₀' positive] at thin
  · intro deep
    have positive : 0 < s.lineOfSight.factor * i.kappa := by
      by_contra transparent
      linarith [mul_nonpos_of_nonpos_of_nonneg (not_lt.mp transparent) nonneg]
    exact ⟨_, ⟨positive, rfl⟩, (div_lt_iff₀' positive).mpr deep⟩

/-- The share of a skin that is thinner than the column is at most one over the depth of the
path. -/
theorem share_le_of_deep (on : s.enabled = true) (column : i.tau = i.kappa * i.sigma)
    (nonneg : 0 ≤ i.sigma) (deep : 1 < (s.apply i).pathDepth) :
    (s.apply i).skin.share i.sigma ≤ 1 / (s.apply i).pathDepth := by
  obtain ⟨sigma, thin, _⟩ := (skin_lt_iff on column nonneg).mpr deep
  obtain ⟨positive, rfl⟩ := skin_eq_column_iff.mp ((skin_apply on).symm.trans thin)
  have held := share_mul_le i.sigma (one_div_pos.mpr positive).le
  rw [thin, le_div_iff₀ (zero_lt_one.trans deep), pathDepth_apply, column]
  rw [le_div_iff₀ positive] at held
  linarith

end ShieldingSettings

/-! ## One step -/

/-- The active mass of a bin is not negative. -/
theorem SizeBins.IsGrid.activeMasses_nonneg {b : SizeBins ℝ} (grid : b.IsGrid)
    (nonneg : b.IsNonneg) (floor : ℝ) : ∀ m ∈ b.activeMasses floor, 0 ≤ m := by
  intro active member
  obtain ⟨j, held⟩ := List.mem_iff_getElem?.mp member
  obtain ⟨m, w, mass, weight, rfl⟩ := List.getElem?_zipWith_eq_some.mp held
  obtain ⟨span, place, rfl⟩ := List.mem_map.mp (List.mem_of_getElem? weight)
  exact mul_nonneg (nonneg m (List.mem_of_getElem? mass)) (grid.activeWeight_mem place _).1

/-- Bins on which blow-out does not act count for nothing. -/
theorem eligibleRate_of_nonpos (mass rate : ℝ) {pairs : List (Timescale ℝ × ℝ)}
    (empty : ∀ pair ∈ pairs, pair.2 ≤ 0) : eligibleRate mass rate pairs = (mass, rate) := by
  induction pairs with
  | nil => rfl
  | cons pair rest ih =>
    obtain ⟨time, m⟩ := pair
    obtain ⟨first, later⟩ := List.forall_mem_cons.mp empty
    cases time with
    | finite t => rw [eligibleRate, if_neg (not_lt.mpr first), ih later]
    | infinite => rw [eligibleRate, ih later]

namespace Evaluation
variable {e : Evaluation ℝ} {c : RunConfig ℝ} {selector : PressureSelector ℝ} {state : DiskState ℝ}

/-- The mass that is active is spread over the annulus. -/
theorem IsOf.activeSigma_mul_area (h : e.IsOf c selector state) (area : 0 < c.disk.area) :
    e.activeSigma * c.disk.area = e.active.mass := by
  rw [h.activeSigma, div_mul_cancel₀ _ area.ne']

theorem IsOf.activeSigma_nonneg (h : e.IsOf c selector state) (grid : state.bins.IsGrid)
    (nonneg : state.bins.IsNonneg) (area : 0 < c.disk.area) : 0 ≤ e.activeSigma := by
  rw [h.activeSigma, h.active]
  simp only [SizeBins.activeSummary, sum_real]
  exact div_nonneg (List.sum_nonneg (grid.activeMasses_nonneg nonneg _)) area.le

/-- Blow-out acts on what is exposed. -/
theorem IsOf.eligibleFraction_le_exposure (h : e.IsOf c selector state)
    (nonneg : 0 ≤ e.activeSigma) :
    e.eligibleFraction ≤ c.exposure e.depthGated e.phase.tag e.shielding.pathDepth := by
  have exposed := c.exposure_nonneg e.depthGated e.phase.tag e.shielding.pathDepth
  simp only [h.eligibleFraction, BlowoutSettings.eligibleFraction]
  cases gated : e.depthGated with
  | true => simpa [gated] using exposed
  | false =>
    simp only [gated, Bool.false_eq_true, if_false] at exposed ⊢
    split_ifs with barred
    · exact exposed
    · simp only [RunConfig.exposure, Bool.false_eq_true, false_or, if_neg barred]
      cases layer : c.blowout.layer with
      | full => simp
      | skin =>
        cases shielded : c.shielding.enabled with
        | false => simpa using (e.shielding.skin.share_mem e.activeSigma).2
        | true =>
          simp only [reduceCtorEq, Bool.true_eq_false, or_self, if_false]
          split_ifs with deep
          · rw [h.shielding] at deep ⊢
            exact ShieldingSettings.share_le_of_deep shielded h.tau nonneg deep
          · exact (e.shielding.skin.share_mem e.activeSigma).2

/-- The part of the skin that blow-out acts on holds no more than the skin. -/
theorem IsOf.eligibleFraction_mul_le (h : e.IsOf c selector state)
    (layer : c.blowout.layer = .skin) {sigma : ℝ} (thin : e.shielding.skin = .column sigma) :
    e.eligibleFraction * e.activeSigma ≤ sigma := by
  have nonneg : 0 ≤ sigma := by
    rw [h.shielding] at thin
    cases shielded : c.shielding.enabled with
    | false => simp [ShieldingSettings.skin_apply_of_disabled shielded] at thin
    | true =>
      rw [ShieldingSettings.skin_apply shielded, ShieldingSettings.skin_eq_column_iff] at thin
      obtain ⟨positive, rfl⟩ := thin
      exact (one_div_pos.mpr positive).le
  simp only [h.eligibleFraction, BlowoutSettings.eligibleFraction, layer, thin]
  split_ifs
  · rwa [zero_mul]
  · rwa [zero_mul]
  · exact ShieldingSettings.share_mul_le _ nonneg

/-- A bin gives up the share of blow-out at most. -/
theorem removalOf_le (e : Evaluation ℝ) (c : RunConfig ℝ) (dt : Time ℝ) (t : Timescale ℝ)
    {eligible : ℝ} (nonneg : 0 ≤ eligible) :
    e.removalOf c dt t eligible ≤ (e.blowoutPlan c dt).decision.gate * eligible := by
  have gate : 0 ≤ (e.blowoutPlan c dt).decision.gate := (gateFactor_mem _ _).1
  have fraction := (c.blowout.fastStep.fraction_mem dt.seconds t).2
  rw [e.removalOf_eq c dt t nonneg]
  exact mul_le_mul_of_nonneg_right (mul_le_of_le_one_right gate fraction) nonneg

/-- Blow-out removes its share of what it acts on at most. -/
theorem IsOf.sum_removal_le (h : e.IsOf c selector state) (grid : state.bins.IsGrid)
    (nonneg : state.bins.IsNonneg) (area : 0 < c.disk.area) (dt : Time ℝ) :
    (e.removal c dt).sum ≤ (e.blowoutPlan c dt).decision.gate * e.activeSigma * c.disk.area *
      e.eligibleFraction := by
  set gate := (e.blowoutPlan c dt).decision.gate with share
  have eligible : ∀ m ∈ e.eligible, 0 ≤ m := by
    rw [h.eligible]
    intro m member
    obtain ⟨active, held, rfl⟩ := List.mem_map.mp member
    exact mul_nonneg (grid.activeMasses_nonneg nonneg _ active held) h.eligibleFraction_mem.1
  have counted : e.eligible.length ≤ e.blowoutTimes.length := by
    simp [h.length_blowoutTimes grid.shaped, h.eligible, SizeBins.activeMasses,
      SizeBins.activeWeights]
  have total : e.eligible.sum = e.active.mass * e.eligibleFraction := by
    rw [h.eligible, List.sum_map_mul_right, List.map_id', h.active]
    simp [SizeBins.activeSummary]
  calc
    (e.removal c dt).sum
      = ((e.blowoutTimes.zip e.eligible).map fun p => e.removalOf c dt p.1 p.2).sum := rfl
    _ ≤ ((e.blowoutTimes.zip e.eligible).map fun p => gate * p.2).sum :=
        List.sum_le_sum fun p member =>
          removalOf_le e c dt p.1 (eligible p.2 (List.of_mem_zip member).2)
    _ = gate * e.eligible.sum := by
        rw [List.sum_map_mul_left, List.map_snd_zip counted]
    _ = gate * e.activeSigma * c.disk.area * e.eligibleFraction := by
        rw [total, ← h.activeSigma_mul_area area]
        ring

/-- Blow-out removes its share of what is exposed at most. -/
theorem IsOf.sum_removal_le_exposure (h : e.IsOf c selector state) (grid : state.bins.IsGrid)
    (nonneg : state.bins.IsNonneg) (area : 0 < c.disk.area) (dt : Time ℝ) :
    (e.removal c dt).sum ≤ (e.blowoutPlan c dt).decision.gate * e.activeSigma * c.disk.area *
      c.exposure e.depthGated e.phase.tag e.shielding.pathDepth := by
  have sigma := h.activeSigma_nonneg grid nonneg area
  have gate : 0 ≤ (e.blowoutPlan c dt).decision.gate := (gateFactor_mem _ _).1
  exact (h.sum_removal_le grid nonneg area dt).trans (mul_le_mul_of_nonneg_left
    (h.eligibleFraction_le_exposure sigma) (mul_nonneg (mul_nonneg gate sigma) area.le))

/-- Blow-out that acts on the skin removes no more than the skin holds. -/
theorem IsOf.sum_removal_le_skin (h : e.IsOf c selector state) (grid : state.bins.IsGrid)
    (nonneg : state.bins.IsNonneg) (area : 0 < c.disk.area) (layer : c.blowout.layer = .skin)
    {sigma : ℝ} (thin : e.shielding.skin = .column sigma) (dt : Time ℝ) :
    (e.removal c dt).sum ≤ sigma * c.disk.area := by
  have acted : 0 ≤ e.eligibleFraction * e.activeSigma :=
    mul_nonneg h.eligibleFraction_mem.1 (h.activeSigma_nonneg grid nonneg area)
  have share : (e.blowoutPlan c dt).decision.gate ≤ 1 := (gateFactor_mem _ _).2
  calc
    (e.removal c dt).sum
      ≤ (e.blowoutPlan c dt).decision.gate * e.activeSigma * c.disk.area * e.eligibleFraction :=
        h.sum_removal_le grid nonneg area dt
    _ = (e.blowoutPlan c dt).decision.gate * (e.eligibleFraction * e.activeSigma) *
          c.disk.area := by ring
    _ ≤ e.eligibleFraction * e.activeSigma * c.disk.area :=
        mul_le_mul_of_nonneg_right (mul_le_of_le_one_left acted share) area.le
    _ ≤ sigma * c.disk.area :=
        mul_le_mul_of_nonneg_right (h.eligibleFraction_mul_le layer thin) area.le

/-- Nothing blows out when nothing is exposed. -/
theorem IsOf.blow_of_exposure (h : e.IsOf c selector state) (sigma : 0 ≤ e.activeSigma)
    (unexposed : c.exposure e.depthGated e.phase.tag e.shielding.pathDepth = 0) (dt : Time ℝ) :
    e.timescales.blow = .infinite ∧ (e.blowoutPlan c dt).decision.loss = 0 := by
  have nothing : e.eligibleFraction = 0 :=
    le_antisymm ((h.eligibleFraction_le_exposure sigma).trans unexposed.le)
      h.eligibleFraction_mem.1
  have empty : ∀ pair ∈ e.blowoutTimes.zip e.eligible, pair.2 ≤ 0 := by
    intro pair member
    have eligible := (List.of_mem_zip member).2
    rw [h.eligible, nothing] at eligible
    obtain ⟨m, _, same⟩ := List.mem_map.mp eligible
    rw [← same, mul_zero]
  have blow : e.timescales.blow = .infinite := by
    rw [h.timescales]
    simp [aggregateTimescale, eligibleRate_of_nonpos 0 0 empty]
  refine ⟨blow, ?_⟩
  simp [blowoutPlan, BlowoutSettings.plan, blow, FastStepSettings.regime?]

end Evaluation

/-! ## Whole runs -/

namespace Integrator
variable {σ : Type} {i : Integrator ℝ σ} {c : RunConfig ℝ} {q : Preparation ℝ}

/-- **Blow-out takes what is exposed.** Take any step of any session with an accepted run. Blow-out
removes at most its share of the combined rate, times the active mass, times the fraction of the
column that is exposed, all of which the record tells. Where nothing is exposed the record reports
that no blow-out acts, that no fraction is lost and that nothing was removed.

With shielding, the skin is thinner than the column exactly when the depth of the path exceeds one,
and blow-out that acts on the skin removes no more than the skin holds. -/
theorem blowout_of_exposure [DiagnosticsSink ℝ σ] {sink : σ} {start : Integrator ℝ σ}
    (accepted : Integrator.new c sink = .ok start) (demands : List Demand) :
    ∀ r ∈ (start.session demands).trace,
      let removed := r.record.removed.blowout
      let gate := r.record.gate
      let disk := r.record.disk
      let exposed := c.exposure gate.depthGated r.record.phase.tag disk.pathDepth
      removed ≤ gate.gate * disk.activeSigma * c.disk.area * exposed ∧
      (exposed = 0 → r.record.timescales.blow = .infinite ∧ gate.loss = 0 ∧ removed = 0) ∧
      (c.shielding.enabled = true →
        ((∃ sigma, disk.skin = .column sigma ∧ sigma < disk.activeSigma) ↔ 1 < disk.pathDepth) ∧
        (c.blowout.layer = .skin → ∀ sigma, disk.skin = .column sigma →
          removed ≤ sigma * c.disk.area)) := by
  intro r member
  obtain ⟨q, first, state, books⟩ := isRunOf_new accepted
  obtain ⟨k, held⟩ := List.mem_iff_getElem?.mp member
  obtain ⟨j, s, ⟨run, exact⟩, _, gathered, passed, _⟩ :=
    step_of_session (P := fun j => j.IsRunOf c q ∧ j.IsExact)
      ⟨first, isExact_of_start first state books⟩
      (fun _ kept => ⟨kept.1.stepOnce, kept.2.stepOnce kept.1⟩) held
  have inputs := inputs_eq_ok gathered
  obtain ⟨valid, _⟩ := RunConfig.prepare_eq_ok run.prepared
  obtain ⟨_, _, r', passed', _, flows, planned, _⟩ := advance_exact run exact inputs
  obtain rfl := Except.ok.inj (passed'.symm.trans passed)
  have h := inputs.evaluation
  have area := valid.area_pos
  rw [run.config] at h planned
  have sigma := h.activeSigma_nonneg exact.grid exact.nonneg area
  have most := h.sum_removal_le_exposure exact.grid exact.nonneg area s.dt
  have blows := flows.blowout
  obtain ⟨_, _, _, _, _, after, record⟩ := Evaluation.advance_eq_ok passed
  rw [run.config] at record
  have depth : r'.state.pathDepth = s.evaluation.shielding.pathDepth := by rw [after]; rfl
  rw [← planned, record] at most
  rw [record] at planned blows ⊢
  simp only [Evaluation.recordOf, depth] at most planned blows ⊢
  refine ⟨most, fun nothing => ?_, fun shielded => ⟨?_, fun layer thickness thin => ?_⟩⟩
  · obtain ⟨blow, loss⟩ := h.blow_of_exposure sigma nothing s.dt
    have unmoved := most.trans_eq (mul_eq_zero_of_right _ nothing)
    exact ⟨blow, loss, le_antisymm unmoved blows⟩
  · rw [h.shielding]
    exact ShieldingSettings.skin_lt_iff shielded h.tau sigma
  · rw [planned]
    exact h.sum_removal_le_skin exact.grid exact.nonneg area layer thin s.dt

/-- The first step of the baseline run without a mass floor removes no more than its skin holds. -/
theorem blowout_of_exposure_enduring :
    ∃ (start : Integrator ℝ (Obliging ℝ)) (r : Committed ℝ),
      Integrator.new (.enduring none) { answer := .ok () } = .ok start ∧
      (start.session [.step]).trace = [r] ∧
      r.record.removed.blowout ≤ r.record.gate.gate * r.record.disk.activeSigma *
        start.config.disk.area * start.config.exposure r.record.gate.depthGated
          r.record.phase.tag r.record.disk.pathDepth ∧
      ∀ sigma, r.record.disk.skin = .column sigma →
        r.record.removed.blowout ≤ sigma * start.config.disk.area := by
  obtain ⟨start, accepted, endures, _, stage, _⟩ :=
    exists_new_enduring (by simp : ∀ n, none = some n → 0 < n) ({ answer := .ok () } : Obliging ℝ)
  obtain ⟨r, trace⟩ := endures.exists_step (.inl stage)
  obtain ⟨most, _, skin⟩ := blowout_of_exposure accepted [.step] r (by simp [trace])
  refine ⟨start, r, accepted, trace, ?_, ?_⟩
  · rw [endures.config]
    exact most
  · rw [endures.config]
    exact (skin rfl).2 rfl

end Integrator
end DebrisDisk
