import DebrisDisk.Proofs.Special.Regular
import DebrisDisk.Proofs.Special.Steep

/-!
# Refused steps with special values

A run commits a step only when its accounts pass the check, and they do not pass it with a mass that
is infinite or undefined. So before every step all masses are finite, and a refusal needs an
undefined mass that came up within the step. A step that ends with such a mass, or with an infinite
one, and is not refused, is found in violation of the budget. So is a step whose delivery finds a
place and has no bound.

## Main results

* `MassLedger.not_within_of_unbounded`: accounts with an infinite or undefined mass do not pass.
* `Integrator.IsSound.beyond_of_delivery`: a delivery without bound is beyond every tolerance.
* `Integrator.isSound_afterCalls`: the committed masses are finite and not negative.
* `Integrator.stepOnce_refused_iff`: when a step is refused.
-/

namespace DebrisDisk
open Scalar Rounded
open scoped ENNReal
variable {R : Rounding}

/-! ## Unbounded accounts -/

namespace Rounded
variable {x : Rounded R}

/-- The magnitude of an unbounded number is undefined or infinite. -/
theorem magnitude_unbounded (h : isFinite x = false) :
    magnitude x = nan ∨ (magnitude x).IsInfinite := by
  rw [not_isFinite_iff] at h
  rcases h with rfl | infinite
  · left
    simp [magnitude]
  · right
    cases x with
    | nan => simp [size] at infinite
    | num s a =>
      simp only [size] at infinite
      simp only [magnitude]
      cases s with
      | false =>
        have nonneg : 0 ≤ (num false a : Rounded R) := num_nonneg_iff.mpr (by simp)
        rw [if_neg ((not_lt_iff num_ne_nan zero_ne_nan).mpr nonneg)]
        exact ⟨nonneg, infinite⟩
      | true =>
        have negative : (num true a : Rounded R) < 0 := by
          rw [← not_le_iff zero_ne_nan num_ne_nan, num_nonneg_iff]
          simp [infinite]
        rw [if_pos negative]
        exact ⟨num_nonneg_iff.mpr (by simp), infinite⟩

theorem hundred_pos : (0 : Rounded R) < 100.0 := by
  have large : (1 : ℝ≥0∞) ≤ (100.0 : Rounded R).size := by
    change 1 ≤ R.round (ENNReal.ofReal 100.0)
    rw [← R.round_one]
    refine R.monotone ?_
    rw [ENNReal.one_le_ofReal]
    norm_num
  exact (pos_iff_size (ofSize_nonneg _)).mpr (one_pos.trans_le large).ne'

end Rounded

/-- Accounts with an infinite or undefined mass, held or supplied, do not pass the check. -/
theorem MassLedger.not_within_of_unbounded {l : MassLedger (Rounded R)}
    (initial : 0 < l.initial ∧ isFinite l.initial = true)
    (tolerance : 0 < l.tolerance ∧ isFinite l.tolerance = true)
    (unbounded : isFinite l.current = false ∨ isFinite l.totals.sources = false) :
    ¬ l.errorPercent ≤ l.tolerance := by
  intro within
  have discrepancy : isFinite l.discrepancy = false := by
    refine sub_unbounded (unbounded.symm.imp_left fun supplied => ?_)
    exact sub_unbounded (.inl (add_unbounded (.inr supplied)))
  simp only [errorPercent] at within
  rcases magnitude_unbounded discrepancy with undefined | infinite
  · rw [undefined] at within
    exact nan_le within
  · have error := (infinite.div initial.1 initial.2).mul hundred_pos
    have finite := isFinite_of_le error.nonneg within tolerance.2
    rw [error.isFinite_eq_false] at finite
    cases finite

/-! ## The floor -/

namespace Integrator
variable {σ : Type} {i : Integrator (Rounded R) σ} {c : RunConfig (Rounded R)}
  {p : Preparation (Rounded R)} {s : StepInputs (Rounded R)}

/-- The floor of a step is positive. -/
theorem floor_pos (run : i.IsRunOf c p) (inputs : s.IsOf i) :
    0 < s.evaluation.floor.size.metres := by
  obtain ⟨valid, _⟩ := RunConfig.prepare_eq_ok run.prepared
  have smallest : 0 < i.config.sizes.smallest := by
    rw [run.config]
    exact valid.sizes.1.1
  rw [inputs.evaluation.floor]
  simp only [RunConfig.sizeFloorOf, SizeFloor.resolve]
  split_ifs with higher
  · exact lt_of_lt_of_le smallest (le_of_lt higher)
  · exact smallest

/-! ## What is committed -/

/-- Every bin holds a finite mass that is not negative, and the accounts can tell. -/
structure IsSound (i : Integrator (Rounded R) σ) : Prop where
  shaped : i.state.bins.IsShaped
  masses : HoldsFinite i.state.bins
  initial : 0 < i.ledger.initial ∧ isFinite i.ledger.initial = true
  tolerance : 0 < i.ledger.tolerance ∧ isFinite i.ledger.tolerance = true

/-- Bins with a finite total hold finite masses. -/
theorem finite_of_total {b : SizeBins (Rounded R)} (amounts : HoldsAmounts b)
    (finite : isFinite b.totalMass.kilograms = true) : HoldsFinite b := by
  intro m hm
  obtain ⟨nonneg, less⟩ := sum_mem amounts finite m hm
  exact ⟨nonneg, isFinite_of_le nonneg less finite⟩

/-- The initial grains hold finite masses. -/
theorem isSound_of_start (run : i.IsRunOf c p) (start : i.state = p.state)
    (books : i.ledger = p.ledger) : i.IsSound := by
  obtain ⟨valid, _, _, bins, initial, state, opened, ledger⟩ := RunConfig.prepare_eq_ok run.prepared
  obtain ⟨empty, spaced, filled⟩ := RunConfig.initialBins_eq_ok initial
  obtain ⟨_, _, shaped, _, _⟩ := SizeBins.logSpaced_eq_ok spaced
  have lower : 0 < c.initial.smallest.getD c.sizes.smallest := by
    cases smallest : c.initial.smallest with
    | none => exact valid.sizes.1.1
    | some x => exact (valid.lower x smallest).1.1
  have amounts : HoldsAmounts bins := by
    rw [SizeBins.withPowerLaw_eq_ok filled]
    intro m hm
    obtain ⟨j, hj⟩ := List.mem_iff_getElem?.mp hm
    obtain ⟨_, w, _, hw, rfl⟩ := List.getElem?_zipWith_eq_some.mp hj
    have share := powerLawWeights_mem empty lower c.initial.slope w (List.mem_of_getElem? hw)
    have total : (Mass.ofMarsMasses c.initial.marsMasses).kilograms.IsAmount :=
      (isAmount_of_nonneg (le_of_lt valid.mass.1)).mul (isAmount_of_nonneg (ofSize_nonneg _))
    exact total.mul (isAmount_of_nonneg share.1)
  rw [state] at start
  refine ⟨?_, ?_, ?_, ?_⟩
  · rw [start]
    exact (SizeBins.sameGrid_withPowerLaw shaped filled).isShaped shaped
  · rw [start]
    exact finite_of_total amounts opened.2
  · rw [books, ledger]
    exact opened
  · rw [books, ledger]
    exact valid.tolerance

/-- A commit keeps the masses finite. -/
theorem IsSound.commit (run : i.IsRunOf c p) (sound : i.IsSound) (inputs : s.IsOf i)
    {r : Committed (Rounded R)} (passed : i.advance s = .ok r) :
    ((i.started s).commit r).IsSound := by
  obtain ⟨bins, flows, error, moved, checked, state, _⟩ := Evaluation.advance_eq_ok passed
  obtain ⟨rfl, within, ledger⟩ := MassLedger.check_eq_ok checked
  have escaped := (Evaluation.moveMass_eq_some_iff.mp moved).1
  have last : bins ∈ (s.evaluation.passage i.config s.dt s.delivered i.state.bins).stages := by
    simp [escaped, Passage.stages]
  have amounts : HoldsAmounts bins := isAmount_passage (floor_pos run inputs) i.config s.dt
    s.delivered sound.masses.holdsAmounts bins last
  have finite : isFinite bins.totalMass.kilograms = true := by
    by_contra unbounded
    exact MassLedger.not_within_of_unbounded (l := i.ledger.record flows bins.totalMass)
      sound.initial sound.tolerance (.inl ((Bool.not_eq_true _).mp unbounded)) within
  refine ⟨?_, ?_, ?_, ?_⟩
  · simp only [Integrator.commit, state, Evaluation.stateAfter]
    exact (Evaluation.sameGrid_passage _ _ _ _ sound.shaped bins last).isShaped sound.shaped
  · simp only [Integrator.commit, state, Evaluation.stateAfter]
    exact finite_of_total amounts finite
  · simp only [Integrator.commit, ledger, MassLedger.record]
    exact sound.initial
  · simp only [Integrator.commit, ledger, MassLedger.record]
    exact sound.tolerance

variable [DiagnosticsSink (Rounded R) σ]

/-- One call keeps the committed masses finite. -/
theorem IsSound.stepOnce (run : i.IsRunOf c p) (sound : i.IsSound) : i.stepOnce.after.IsSound := by
  have effect := i.stepOnce_effect
  generalize i.stepOnce.after = after at effect
  cases effect with
  | kept sink lifecycle => exact ⟨sound.shaped, sound.masses, sound.initial, sound.tolerance⟩
  | blocked s o _ _ sink lifecycle =>
    exact ⟨sound.shaped, sound.masses, sound.initial, sound.tolerance⟩
  | committed s r gathered passed sink lifecycle =>
    have committed := sound.commit run (inputs_eq_ok gathered) passed
    exact ⟨committed.shaped, committed.masses, committed.initial, committed.tolerance⟩

/-- Along every run that was accepted the committed masses are finite and not negative. -/
theorem isSound_afterCalls {sink : σ} {start : Integrator (Rounded R) σ}
    (accepted : Integrator.new c sink = .ok start) (n : ℕ) :
    ∃ p, (start.afterCalls n).IsRunOf c p ∧ (start.afterCalls n).IsSound := by
  obtain ⟨p, run, state, books⟩ := isRunOf_new accepted
  exact ⟨p, afterCalls_induction (P := fun j => j.IsRunOf c p ∧ j.IsSound)
    ⟨run, isSound_of_start run state books⟩
    (fun _ kept => ⟨kept.1.stepOnce, kept.2.stepOnce kept.1⟩) n⟩

/-! ## When a step is refused -/

/-- The next step of a run is refused exactly when it draws from an undefined mass. -/
theorem IsSound.refused_iff (run : i.IsRunOf c p) (sound : i.IsSound) :
    i.stepOnce.result = .refused ↔
      (i.lifecycle = .initializing ∨ i.lifecycle = .stepping) ∧
        ∃ s, i.inputs = .ok s ∧
          s.evaluation.MeetsUndefined i.config s.dt s.delivered i.state.bins := by
  rw [stepOnce_eq_refused_iff]
  refine and_congr_right fun _ => exists_congr fun s => and_congr_right fun gathered => ?_
  have inputs := inputs_eq_ok gathered
  have defined := (ne_nan_of_le (forward_of_inputs run inputs)).2
  rw [Evaluation.moveMass_eq_none_iff]
  exact exists_refused_draw_iff inputs.evaluation defined (floor_pos run inputs) sound.shaped
    sound.masses s.delivered

/-- A step that is not refused and leaves an infinite or undefined mass violates the budget. -/
theorem IsSound.violation (run : i.IsRunOf c p) (sound : i.IsSound)
    (live : i.lifecycle = .initializing ∨ i.lifecycle = .stepping) (gathered : i.inputs = .ok s)
    (met : ¬ s.evaluation.MeetsUndefined i.config s.dt s.delivered i.state.bins) {m : Rounded R}
    (hm : m ∈ (s.evaluation.passage i.config s.dt s.delivered i.state.bins).escaped.masses)
    (unbounded : isFinite m = false) :
    ∃ error discrepancy, i.stepOnce.result =
      .error (.step i.steps (.budgetViolation error i.ledger.tolerance discrepancy)) := by
  have inputs := inputs_eq_ok gathered
  have given : i.stepOnce.result ≠ .refused := by
    rw [Ne, sound.refused_iff run]
    rintro ⟨_, s', gathered', met'⟩
    rw [gathered, Except.ok.injEq] at gathered'
    exact met (gathered' ▸ met')
  cases moved : s.evaluation.moveMass i.config s.dt s.delivered i.state.bins with
  | none => exact absurd (stepOnce_eq_refused_iff.mpr ⟨live, s, gathered, moved⟩) given
  | some after =>
    obtain ⟨bins, flows⟩ := after
    obtain rfl := (Evaluation.moveMass_eq_some_iff.mp moved).1
    set escaped := (s.evaluation.passage i.config s.dt s.delivered i.state.bins).escaped
      with last
    have amounts : HoldsAmounts escaped := isAmount_passage (floor_pos run inputs) i.config s.dt
      s.delivered sound.masses.holdsAmounts escaped (by simp [last, Passage.stages])
    have total : isFinite escaped.totalMass.kilograms = false := by
      by_contra finite
      have bounded := (finite_of_total amounts ((Bool.not_eq_false _).mp finite) m hm).2
      rw [unbounded] at bounded
      cases bounded
    have beyond := MassLedger.not_within_of_unbounded
      (l := i.ledger.record flows escaped.totalMass) sound.initial sound.tolerance (.inl total)
    cases checked : (i.ledger.record flows escaped.totalMass).check with
    | ok passed => exact absurd (MassLedger.check_eq_ok checked).2.1 (by
        rwa [(MassLedger.check_eq_ok checked).1])
    | error cause =>
      obtain ⟨_, rfl⟩ := MassLedger.check_eq_error checked
      exact ⟨_, _, stepOnce_of_check_error live gathered moved checked⟩

omit [DiagnosticsSink (Rounded R) σ] in
/-- A delivery without bound that finds a place takes the accounts beyond the tolerance. -/
theorem IsSound.beyond_of_delivery (sound : i.IsSound) (given : ¬ s.delivered ≤ 0)
    (unbounded : isFinite s.delivered = false)
    (place : ∃ w ∈ i.config.supply.shares
      (s.evaluation.passage i.config s.dt s.delivered i.state.bins).retired
      s.evaluation.floor.size.metres, isZero w = false)
    {bins : SizeBins (Rounded R)} {flows : MassFlows (Rounded R)}
    (moved : s.evaluation.moveMass i.config s.dt s.delivered i.state.bins = some (bins, flows)) :
    ¬ (i.ledger.record flows bins.totalMass).errorPercent ≤ i.ledger.tolerance := by
  obtain ⟨_, _, supplied, _⟩ := Evaluation.moveMass_eq_some_iff.mp moved
  have somewhere : ¬ (i.config.supply.shares
      (s.evaluation.passage i.config s.dt s.delivered i.state.bins).retired
      s.evaluation.floor.size.metres).all isZero = true := by
    simpa using place
  obtain ⟨w, hw, _⟩ := place
  have supply : isFinite flows.supply = false := by
    rw [← supplied]
    simp only [SupplySettings.inject]
    rw [if_neg given, if_neg somewhere]
    exact sum_unbounded ⟨_, List.mem_map_of_mem hw, mul_unbounded unbounded⟩
  exact MassLedger.not_within_of_unbounded (l := i.ledger.record flows bins.totalMass)
    sound.initial sound.tolerance (.inr (add_unbounded (.inr supply)))

/-- **When a step is refused.** Take any run that was accepted, after any number of calls. Its
committed masses are finite and not negative, and every withdrawal of its next step finds a mass
that is undefined or not negative.

* The next step is refused exactly when it draws from an undefined mass: when its delivery spoils
  the bins, or when an active bin holds an undefined mass as gas drag or escape comes to it.
* The supply leaves an undefined mass exactly when the delivery spoils the bins.
* A step that is not refused but ends with an infinite or undefined mass violates the budget.
* A step is not refused when the delivery is finite, the active shares are defined and no bin
  becomes infinite on the way. -/
theorem stepOnce_refused_iff {sink : σ} {start : Integrator (Rounded R) σ}
    (accepted : Integrator.new c sink = .ok start) (n : ℕ) :
    let i := start.afterCalls n
    HoldsFinite i.state.bins ∧
    (i.stepOnce.result = .refused ↔
      (i.lifecycle = .initializing ∨ i.lifecycle = .stepping) ∧
        ∃ s, i.inputs = .ok s ∧
          s.evaluation.MeetsUndefined i.config s.dt s.delivered i.state.bins) ∧
    ∀ s, i.inputs = .ok s →
      let floor := s.evaluation.floor.size.metres
      let stages := s.evaluation.passage i.config s.dt s.delivered i.state.bins
      (∀ d ∈ s.evaluation.draws i.config s.dt s.delivered i.state.bins, d.held.IsAmount) ∧
      (nan ∈ stages.supplied.masses ↔
        i.config.supply.Spoils stages.retired s.delivered floor) ∧
      ((i.lifecycle = .initializing ∨ i.lifecycle = .stepping) →
        ¬ s.evaluation.MeetsUndefined i.config s.dt s.delivered i.state.bins →
        (∃ m ∈ stages.escaped.masses, isFinite m = false) →
        ∃ error discrepancy, i.stepOnce.result =
          .error (.step i.steps (.budgetViolation error i.ledger.tolerance discrepancy))) ∧
      (isFinite s.delivered = true →
        (∀ span ∈ i.state.bins.spans, isNaN (activeWeight span.1 span.2 floor) = false) →
        (∀ b ∈ stages.stages, ∀ m ∈ b.masses, isFinite m = true ∨ isNaN m = true) →
        i.stepOnce.result ≠ .refused) := by
  intro i
  obtain ⟨p, run, sound⟩ := isSound_afterCalls accepted n
  refine ⟨sound.masses, sound.refused_iff run, fun s gathered => ?_⟩
  have inputs := inputs_eq_ok gathered
  have positive := floor_pos run inputs
  refine ⟨isAmount_held positive sound.masses s.delivered,
    nan_mem_supplied_iff positive sound.shaped sound.masses s.delivered, ?_, ?_⟩
  · rintro live met ⟨m, hm, unbounded⟩
    exact sound.violation run live gathered met hm unbounded
  · intro finite shares bounded
    rw [Ne, sound.refused_iff run]
    rintro ⟨_, s', gathered', met⟩
    rw [gathered, Except.ok.injEq] at gathered'
    subst gathered'
    exact not_meetsUndefined inputs.evaluation (forward_of_inputs run inputs) positive sound.shaped
      sound.masses finite shares bounded met

/-- The run with a steep supply is accepted with finite masses, and its first step is refused. -/
theorem stepOnce_refused_steep :
    ∃ start : Integrator (Rounded .overflow) (MemorySink (Rounded .overflow)),
      Integrator.new .steep .empty = .ok start ∧ HoldsFinite start.state.bins ∧
        start.stepOnce.result = .refused := by
  obtain ⟨start, accepted, initializing, met⟩ :=
    exists_new_steep (MemorySink.empty : MemorySink (Rounded .overflow))
  obtain ⟨finite, refused, _⟩ := stepOnce_refused_iff accepted 0
  exact ⟨start, accepted, finite, refused.mpr ⟨.inl initializing, met⟩⟩

/-- The first step of the run with a steep supply of amplitude one is not refused, and takes the
accounts beyond the tolerance. -/
theorem exists_new_beyond {σ : Type} [DiagnosticsSink (Rounded .overflow) σ] (sink : σ) :
    ∃ start : Integrator (Rounded .overflow) σ, Integrator.new (.steepOf 1) sink = .ok start ∧
      start.lifecycle = .initializing ∧ ∃ s bins flows, start.inputs = .ok s ∧
        s.evaluation.moveMass start.config s.dt s.delivered start.state.bins
          = some (bins, flows) ∧
        ¬ (start.ledger.record flows bins.totalMass).errorPercent ≤ start.ledger.tolerance := by
  obtain ⟨start, accepted, s, opens⟩ :=
    exists_new_steepOf ⟨zero_le_one, Stands.one.isFinite⟩ sink
  obtain ⟨p, run, state, books⟩ := isRunOf_new accepted
  have sound := isSound_of_start run state books
  have infinite := opens.isInfinite_delivered zero_lt_one
  have inputs := inputs_eq_ok opens.gathered
  have defined := (ne_nan_of_lt opens.forward).2
  cases moved : s.evaluation.moveMass start.config s.dt s.delivered start.state.bins with
  | none =>
    rw [Evaluation.moveMass_eq_none_iff, exists_refused_draw_iff inputs.evaluation defined
      (floor_pos run inputs) sound.shaped sound.masses] at moved
    exact absurd moved (opens.not_meetsUndefined zero_lt_one)
  | some after =>
    obtain ⟨bins, flows⟩ := after
    exact ⟨start, accepted, opens.lifecycle, s, bins, flows, opens.gathered, moved,
      sound.beyond_of_delivery infinite.not_le_zero infinite.isFinite_eq_false opens.exists_share
        moved⟩

end Integrator
end DebrisDisk
