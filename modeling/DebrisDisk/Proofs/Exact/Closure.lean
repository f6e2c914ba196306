import DebrisDisk.Proofs.Exact.Acceptance
import DebrisDisk.Proofs.Exact.Passage
import DebrisDisk.Proofs.Fractions

/-!
# Runs in exact arithmetic

In exact arithmetic three things hold of a run before every step: its grains lie on a grid, no bin
holds a negative mass, and the accounts close without any error. `Integrator.IsExact` collects them.
Every step that is started then passes, so the accounts never fail and no bin ever refuses.

## Main results

* `Integrator.advance_exact`: what a step does.
* `Integrator.mass_closes`: mass closes over whole runs and in every record.
* `Integrator.nonneg_without_truncation`: no mass, flow or withdrawal is ever cut at zero.
-/

namespace DebrisDisk
open Scalar

/-! ## One step -/

namespace MassFlows

@[simp] theorem sources_add (f g : MassFlows ℝ) : (f + g).sources = f.sources + g.sources := rfl

@[simp] theorem sinks_add (f g : MassFlows ℝ) : (f + g).sinks = f.sinks + g.sinks := by
  change (f.add g).sinks = _
  simp only [add, sinks]
  ring

end MassFlows

/-- Accounts without a discrepancy pass the check, with nothing to note. -/
theorem MassLedger.check_of_closed {l : MassLedger ℝ} (closed : l.discrepancy = 0)
    (tolerant : 0 ≤ l.tolerance) :
    l.check = .ok (0, { l with maxError := max l.maxError 0 }) := by
  have error : l.errorPercent = 0 := by simp [errorPercent, closed]
  simp only [check]
  simp only [error, tolerant, if_true, fmax_real]

namespace Integrator
variable {σ : Type} {i : Integrator ℝ σ} {c : RunConfig ℝ} {p : Preparation ℝ} {s : StepInputs ℝ}

/-- The grains lie on a grid without a negative mass, and the accounts close. -/
structure IsExact (i : Integrator ℝ σ) : Prop where
  grid : i.state.bins.IsGrid
  nonneg : i.state.bins.IsNonneg
  closed : i.ledger.initial + i.ledger.totals.sources - i.ledger.totals.sinks
    = i.state.totalMass.kilograms

/-- A step that is started passes. Its stages leave no negative mass, no withdrawal is cut, its
flows account for the change of mass, and the accounts close without an error. -/
theorem advance_exact (run : i.IsRunOf c p) (exact : i.IsExact) (inputs : s.IsOf i) :
    let passage := s.evaluation.passage i.config s.dt s.delivered i.state.bins
    (∀ b ∈ passage.stages, b.IsNonneg) ∧
    (∀ d ∈ s.evaluation.draws i.config s.dt s.delivered i.state.bins, d.IsCovered) ∧
    ∃ r, i.advance s = .ok r ∧ r.state.bins = passage.escaped ∧ r.record.removed.IsNonneg ∧
      r.record.removed.blowout = (s.evaluation.removal i.config s.dt).sum ∧
      r.state.totalMass.kilograms + r.record.removed.sinks =
        i.state.totalMass.kilograms + r.record.removed.sources ∧
      r.ledger.initial = i.ledger.initial ∧
      r.ledger.totals = i.ledger.totals + r.record.removed ∧ r.record.ledgerError = 0 := by
  obtain ⟨valid, _⟩ := RunConfig.prepare_eq_ok run.prepared
  have shallow : i.config.collisions.slope < 4 := by
    have := valid.fragmentSlope.1
    rw [← run.config] at this
    norm_num at this ⊢
    exact this
  obtain ⟨stages, covered, flows, moved, nonneg, planned, closes⟩ :=
    Evaluation.passage_exact rfl inputs.evaluation exact.grid exact.nonneg
      (forward_of_inputs run inputs) shallow
  refine ⟨stages, covered, ?_⟩
  set bins := (s.evaluation.passage i.config s.dt s.delivered i.state.bins).escaped
  have after : bins.totalMass.kilograms + flows.sinks =
      i.state.totalMass.kilograms + flows.sources := by
    simpa [DiskState.totalMass, SizeBins.totalMass] using closes
  have closed : (i.ledger.record flows bins.totalMass).discrepancy = 0 := by
    simp only [MassLedger.discrepancy, MassLedger.record, MassFlows.sources_add,
      MassFlows.sinks_add]
    linarith [exact.closed]
  have tolerant : 0 ≤ (i.ledger.record flows bins.totalMass).tolerance := by
    rw [MassLedger.record, run.tolerance]
    exact valid.tolerance.1.le
  have checked := MassLedger.check_of_closed closed tolerant
  simp only [Integrator.advance, Evaluation.advance]
  rw [moved]
  simp only [checked]
  exact ⟨_, rfl, rfl, nonneg, planned, after, rfl, rfl, rfl⟩

/-! ## Whole runs -/

variable [DiagnosticsSink ℝ σ]

omit [DiagnosticsSink ℝ σ] in
theorem IsExact.commit (run : i.IsRunOf c p) (exact : i.IsExact) (inputs : s.IsOf i)
    {r : Committed ℝ} (passed : i.advance s = .ok r) : ((i.started s).commit r).IsExact := by
  obtain ⟨stages, _, r', passed', bins, _, _, closes, initial, totals, _⟩ :=
    advance_exact run exact inputs
  obtain rfl := Except.ok.inj (passed'.symm.trans passed)
  have last : r'.state.bins ∈
      (s.evaluation.passage i.config s.dt s.delivered i.state.bins).stages := by
    simp [bins, Passage.stages]
  refine ⟨?_, stages _ last, ?_⟩
  · exact (Evaluation.sameGrid_passage _ _ _ _ exact.grid.shaped _ last).isGrid exact.grid
  · simp only [Integrator.commit, initial, totals, MassFlows.sources_add, MassFlows.sinks_add]
    linarith [exact.closed]

/-- One call keeps a run exact. -/
theorem IsExact.stepOnce (run : i.IsRunOf c p) (exact : i.IsExact) :
    i.stepOnce.after.IsExact := by
  have effect := i.stepOnce_effect
  generalize i.stepOnce.after = after at effect
  cases effect with
  | kept sink lifecycle => exact ⟨exact.grid, exact.nonneg, exact.closed⟩
  | blocked s o _ _ sink lifecycle => exact ⟨exact.grid, exact.nonneg, exact.closed⟩
  | committed s r gathered passed sink lifecycle =>
    have committed := exact.commit run (inputs_eq_ok gathered) passed
    exact ⟨committed.grid, committed.nonneg, committed.closed⟩

omit [DiagnosticsSink ℝ σ] in
/-- A run is exact before its first step. -/
theorem isExact_of_start (run : i.IsRunOf c p) (start : i.state = p.state)
    (books : i.ledger = p.ledger) : i.IsExact := by
  obtain ⟨valid, _, _, bins, initial, state, _, ledger⟩ := RunConfig.prepare_eq_ok run.prepared
  obtain ⟨grid, nonneg⟩ := RunConfig.initialBins_exact valid initial
  rw [state] at start
  refine ⟨?_, ?_, ?_⟩
  · simpa [start, RunConfig.initialState] using grid
  · simpa [start, RunConfig.initialState] using nonneg
  · simp [books, ledger, start, RunConfig.initialState, DiskState.totalMass, MassFlows.zero,
      MassFlows.sources, MassFlows.sinks]

/-- Every run that was accepted stays exact, and keeps its preparation. -/
theorem isExact_afterCalls {sink : σ} {start : Integrator ℝ σ}
    (accepted : Integrator.new c sink = .ok start) (n : ℕ) :
    ∃ p, (start.afterCalls n).IsRunOf c p ∧ (start.afterCalls n).IsExact ∧
      start.ledger.initial = start.state.totalMass.kilograms ∧
      (start.afterCalls n).ledger.initial = start.ledger.initial := by
  obtain ⟨p, run, state, books⟩ := isRunOf_new accepted
  have trajectory := afterCalls_induction (P := fun j => j.IsRunOf c p ∧ j.IsExact)
    ⟨run, isExact_of_start run state books⟩
    (fun _ kept => ⟨kept.1.stepOnce, kept.2.stepOnce kept.1⟩) n
  obtain ⟨_, _, _, bins, _, prepared, _, ledger⟩ := RunConfig.prepare_eq_ok run.prepared
  refine ⟨p, trajectory.1, trajectory.2, ?_, ?_⟩
  · simp [books, ledger, state, prepared, RunConfig.initialState, DiskState.totalMass]
  · rw [trajectory.1.initial, books]

/-- Accounts that close are never found in violation. -/
theorem stepOnce_ne_budgetViolation (run : i.IsRunOf c p) (exact : i.IsExact) (step : ℕ)
    (error tolerance discrepancy : ℝ) :
    i.stepOnce.result ≠ .error (.step step (.budgetViolation error tolerance discrepancy)) := by
  intro failed
  have live : i.lifecycle = .initializing ∨ i.lifecycle = .stepping := by
    simp only [Integrator.stepOnce] at failed
    split at failed <;> simp_all
  obtain ⟨_, tried, _⟩ := attempt_of_stepOnce_error live failed
  rcases i.attempt_cases with ⟨e, _, ofModels, _, same⟩ | ⟨s, o, gathered, stuck, _, _⟩ |
    ⟨_, _, _, _, _, sinkFails⟩
  · rw [tried, Except.error.injEq, Obstacle.failed.injEq] at same
    rw [← same] at ofModels
    simp [StepError.isOfModels] at ofModels
  · obtain ⟨_, _, r, passed, _⟩ := advance_exact run exact (inputs_eq_ok gathered)
    rw [passed] at stuck
    simp at stuck
  · obtain ⟨cause, same⟩ := sinkFails _ tried
    simp at same

/-- **Mass closes.** After any number of calls the initial mass, plus what was supplied, minus what
the six sinks took, is the mass that the bins hold. Every step that is started passes, its record
accounts for its change of mass, and the check of the accounts never finds a violation. -/
theorem mass_closes {sink : σ} {start : Integrator ℝ σ}
    (accepted : Integrator.new c sink = .ok start) (n : ℕ) :
    let i := start.afterCalls n
    let totals := i.state.totals
    start.state.totalMass.kilograms + totals.supply
        - (totals.blowout + totals.sublimation + totals.collisions + totals.floor
          + totals.gasDrag + totals.hydroEscape) = i.state.totalMass.kilograms ∧
    i.ledger.totals = totals ∧ i.ledger.initial = start.state.totalMass.kilograms ∧
    (∀ s, i.inputs = .ok s → ∃ r, i.advance s = .ok r ∧
      let removed := r.record.removed
      r.state.totalMass.kilograms = i.state.totalMass.kilograms + removed.supply
        - (removed.blowout + removed.sublimation + removed.collisions + removed.floor
          + removed.gasDrag + removed.hydroEscape) ∧
      r.record.disk.mass = r.state.totalMass.kilograms ∧ r.record.ledgerError = 0) ∧
    ∀ step error tolerance discrepancy,
      i.stepOnce.result ≠ .error (.step step (.budgetViolation error tolerance discrepancy)) := by
  obtain ⟨p, run, exact, initial, kept⟩ := isExact_afterCalls accepted n
  have closed := exact.closed
  rw [kept, initial, ← run.totals] at closed
  refine ⟨closed, run.totals.symm, kept.trans initial, fun s gathered => ?_,
    stepOnce_ne_budgetViolation run exact⟩
  obtain ⟨_, _, r, passed, _, _, _, closes, _, _, noError⟩ :=
    advance_exact run exact (inputs_eq_ok gathered)
  obtain ⟨_, _, _, _, _, _, record⟩ := Evaluation.advance_eq_ok passed
  refine ⟨r, passed, ?_, by rw [record]; rfl, noError⟩
  simp only [MassFlows.sinks, MassFlows.sources] at closes
  linarith

/-- The baseline run closes, and it makes a first step. -/
theorem mass_closes_default :
    ∃ start : Integrator ℝ (MemorySink ℝ), Integrator.new .default .empty = .ok start ∧
      (∃ s r, start.inputs = .ok s ∧ start.advance s = .ok r ∧ r.record.ledgerError = 0) ∧
      ∀ n, let totals := (start.afterCalls n).state.totals
        start.state.totalMass.kilograms + totals.supply
          - (totals.blowout + totals.sublimation + totals.collisions + totals.floor
            + totals.gasDrag + totals.hydroEscape)
          = (start.afterCalls n).state.totalMass.kilograms := by
  obtain ⟨start, accepted, s, gathered⟩ := exists_new_default (MemorySink.empty : MemorySink ℝ)
  obtain ⟨r, passed, _, _, noError⟩ := (mass_closes accepted 0).2.2.2.1 s gathered
  exact ⟨start, accepted, ⟨s, r, gathered, passed, noError⟩, fun n => (mass_closes accepted n).1⟩

/-- **Nothing is cut at zero.** After any number of calls no bin holds a negative mass. A step that
is started leaves none after any of its seven stages, every withdrawal it makes gives just what was
asked for, it passes with seven flows that are not negative, and blow-out takes what was planned
before bins were emptied and refilled. -/
theorem nonneg_without_truncation {sink : σ} {start : Integrator ℝ σ}
    (accepted : Integrator.new c sink = .ok start) (n : ℕ) :
    let i := start.afterCalls n
    (∀ m ∈ i.state.bins.masses, 0 ≤ m) ∧
    ∀ s, i.inputs = .ok s →
      let passage := s.evaluation.passage i.config s.dt s.delivered i.state.bins
      (∀ bins ∈ passage.stages, ∀ m ∈ bins.masses, 0 ≤ m) ∧
      (∀ d ∈ s.evaluation.draws i.config s.dt s.delivered i.state.bins,
        withdraw d.held d.asked = some d.asked) ∧
      ∃ r, i.advance s = .ok r ∧ r.state.bins = passage.escaped ∧
        let removed := r.record.removed
        0 ≤ removed.supply ∧ 0 ≤ removed.blowout ∧ 0 ≤ removed.sublimation ∧
        0 ≤ removed.collisions ∧ 0 ≤ removed.floor ∧ 0 ≤ removed.gasDrag ∧
        0 ≤ removed.hydroEscape ∧
        removed.blowout = (s.evaluation.blowoutPlan i.config s.dt).removal.sum := by
  obtain ⟨p, run, exact, _, _⟩ := isExact_afterCalls accepted n
  refine ⟨exact.nonneg, fun s gathered => ?_⟩
  obtain ⟨stages, covered, r, passed, bins, nonneg, planned, _⟩ :=
    advance_exact run exact (inputs_eq_ok gathered)
  exact ⟨stages, fun d hd => (covered d hd).withdraw_eq, r, passed, bins, nonneg.supply,
    nonneg.blowout, nonneg.sublimation, nonneg.collisions, nonneg.floor, nonneg.gasDrag,
    nonneg.hydroEscape, planned⟩

/-- The first step of the baseline run blows out what was planned, which is not negative. -/
theorem nonneg_without_truncation_default :
    ∃ start : Integrator ℝ (MemorySink ℝ), Integrator.new .default .empty = .ok start ∧
      ∃ s r, start.inputs = .ok s ∧ start.advance s = .ok r ∧ 0 ≤ r.record.removed.blowout ∧
        r.record.removed.blowout = (s.evaluation.blowoutPlan start.config s.dt).removal.sum := by
  obtain ⟨start, accepted, s, gathered⟩ := exists_new_default (MemorySink.empty : MemorySink ℝ)
  obtain ⟨_, _, r, passed, _, _, nonneg, _, _, _, _, _, planned⟩ :=
    (nonneg_without_truncation accepted 0).2 s gathered
  exact ⟨start, accepted, s, r, gathered, passed, nonneg, planned⟩

end Integrator
end DebrisDisk
