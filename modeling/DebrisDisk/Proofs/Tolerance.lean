import DebrisDisk.Proofs.Exact.Enduring
import DebrisDisk.Proofs.Laws
import DebrisDisk.Proofs.Special.Refusal

/-!
# The tolerance of the accounts

A step is committed only when its accounts pass the check, and the error that the check found goes
into the record and into the running maximum. So whenever a run can be looked at, its accounts are
within the tolerance, and the greatest error they have noted is that of its records. The check at
the end of a run finds what the last step noted and changes nothing.

The statements hold for numbers with special values. An undefined error is not within any tolerance,
and an undefined number that a maximum is asked for would be passed over, so it matters that no
record holds one. `Scalar.Ordered` and `Scalar.Neutral` are what is asked of the numbers. Exact
accounts close, so that a step can be beyond the tolerance shows on a run whose supply overflows.

## Main results

* `MassLedger.errorPercent_opening`: accounts that were just opened have no error.
* `Integrator.isWithin_afterRequests`: the accounts of every accepted run are within the tolerance.
* `Integrator.ledger_within_tolerance`: so is the greatest error, which is that of the records, and
  a step beyond the tolerance is not committed.
-/

namespace DebrisDisk
open Scalar DiagnosticsSink

/-- Accounts that were just opened have no error. -/
theorem MassLedger.errorPercent_opening {α : Type} [Scalar α] [Ordered α] [Neutral α] {kg : α}
    (positive : isPositive kg = true) (tolerance : α) :
    ({ initial := kg, totals := .zero, current := kg, tolerance, maxError := 0 } :
      MassLedger α).errorPercent = 0 := by
  have sinks : (MassFlows.zero : MassFlows α).sinks = 0 := by
    simp only [MassFlows.sinks, MassFlows.zero, Neutral.zero_add_zero]
  have sources : (MassFlows.zero : MassFlows α).sources = 0 := rfl
  simp only [errorPercent, discrepancy, sources, sinks, Neutral.add_zero kg positive,
    Neutral.sub_zero kg positive, Neutral.sub_self kg positive, magnitude_zero,
    Neutral.zero_div kg positive, Neutral.zero_percent]

namespace Integrator
variable {α σ : Type} [Scalar α]

/-- The accounts are within the tolerance, and so is the error of every record. The greatest error
that was noted is the running maximum over the records. -/
structure IsWithin (i : Integrator α (Observed α σ)) : Prop where
  error : i.ledger.errorPercent ≤ i.ledger.tolerance
  records : ∀ r ∈ i.sink.records, r.ledgerError ≤ i.ledger.tolerance
  noted : i.ledger.maxError = (i.sink.records.map (·.ledgerError)).foldl fmax 0

/-- A step that passed is within the tolerance, reports its error and notes it. -/
theorem noted_of_advance {i : Integrator α σ} {s : StepInputs α} {r : Committed α}
    (passed : i.advance s = .ok r) :
    r.record.ledgerError = r.ledger.errorPercent ∧ r.ledger.errorPercent ≤ r.ledger.tolerance ∧
      r.ledger.tolerance = i.ledger.tolerance ∧
      r.ledger.maxError = fmax i.ledger.maxError r.record.ledgerError := by
  obtain ⟨bins, flows, error, _, checked, _, record⟩ := Evaluation.advance_eq_ok passed
  obtain ⟨rfl, within, accounts⟩ := MassLedger.check_eq_ok checked
  rw [record, accounts]
  exact ⟨rfl, within, rfl, rfl⟩

namespace IsWithin
variable {i : Integrator α (Observed α σ)}

/-- A call that commits nothing leaves the accounts as they are. -/
theorem kept (within : i.IsWithin) {j : Integrator α (Observed α σ)} (same : i.CommitsNothing j) :
    j.IsWithin where
  error := by rw [same.ledger]; exact within.error
  records := by rw [same.ledger, same.records]; exact within.records
  noted := by rw [same.ledger, same.records]; exact within.noted

/-- A step that passed notes the error of its record. -/
theorem committed (within : i.IsWithin) {s : StepInputs α} {r : Committed α}
    (passed : i.advance s = .ok r) {sink : Observed α σ}
    (records : sink.records = i.sink.records ++ [r.record]) (lifecycle : Lifecycle) :
    IsWithin { (i.started s).commit r with sink, lifecycle } := by
  obtain ⟨reported, fine, tolerance, noted⟩ := noted_of_advance passed
  exact {
    error := fine
    records := by
      intro r' member
      simp only [records, List.mem_append, List.mem_singleton] at member
      simp only [ledger_commit]
      rcases member with earlier | rfl
      · rw [tolerance]
        exact within.records r' earlier
      · rwa [reported]
    noted := by simp [records, noted, within.noted] }

/-- One call keeps the accounts within the tolerance. -/
theorem stepOnce [DiagnosticsSink α σ] (within : i.IsWithin) : i.stepOnce.after.IsWithin := by
  rcases i.stepOnce_commits with ⟨_, same⟩ | ⟨s, r, sink, lifecycle, _, _, passed, sent, after⟩
  · exact within.kept same
  · rw [after]
    exact within.committed passed sent lifecycle

/-- The greatest error that was noted is zero or that of a record. -/
theorem maxError_mem (within : i.IsWithin) :
    i.ledger.maxError = 0 ∨ ∃ r ∈ i.sink.records, i.ledger.maxError = r.ledgerError := by
  rw [within.noted]
  refine (foldl_fmax_mem _ _).imp_right fun member => ?_
  obtain ⟨r, here, same⟩ := List.mem_map.mp member
  exact ⟨r, here, same.symm⟩

/-- No error is greater than the greatest that was noted. -/
theorem le_maxError [Ordered α] (within : i.IsWithin) :
    0 ≤ i.ledger.maxError ∧ ∀ r ∈ i.sink.records, r.ledgerError ≤ i.ledger.maxError := by
  have defined : ∀ e ∈ i.sink.records.map (·.ledgerError), e ≤ e := by
    intro e member
    obtain ⟨r, here, rfl⟩ := List.mem_map.mp member
    exact (Ordered.le_self_of_le (within.records r here)).1
  obtain ⟨start, each⟩ := le_foldl_fmax (Ordered.zero_le_zero (α := α)) defined
  rw [within.noted]
  exact ⟨start, fun r here => each _ (List.mem_map_of_mem here)⟩

end IsWithin

variable [DiagnosticsSink α σ]

/-- The accounts of every accepted run are within the tolerance, which is positive. -/
theorem isWithin_afterRequests [Ordered α] [Neutral α] {c : RunConfig α} {sink : σ}
    {start : Integrator α σ} (accepted : Integrator.new c sink = .ok start)
    (requests : List (Request σ)) :
    (start.observed.afterRequests (requests.map Request.observed)).IsWithin := by
  refine afterObserved_induction ?_ (fun _ within => within.stepOnce) fun _ _ _ within => ?_
  · obtain ⟨p, prepared, rfl⟩ := new_eq_ok accepted
    obtain ⟨valid, _, _, bins, _, _, mass, ledger⟩ := RunConfig.prepare_eq_ok prepared
    have opened : p.ledger.errorPercent = 0 := by
      rw [ledger]
      exact MassLedger.errorPercent_opening (isPositive_iff.mpr mass) _
    have tolerance : p.ledger.tolerance = c.budget.tolerance := by rw [ledger]
    exact {
      error := by
        simp only [observed, mapSink, opened, tolerance]
        exact Ordered.le_of_lt valid.tolerance.1
      records := by simp [observed, mapSink, Observed.of, Observed.records]
      noted := by rw [observed, mapSink, ledger]; rfl }
  · exact within.kept (.change _ _)

/-- **The accounts stay within the tolerance.** Take an accepted run after any sequence of requests,
behind an observer, which changes nothing; requests may go on after a step has failed.

* The tolerance is the configured one, and the error of the accounts is defined and does not exceed
  it.
* The greatest error that the accounts have noted is the maximum of zero and the errors of all
  records that were handed over, so it does not exceed the tolerance either.
* A live run whose next step would move masses and flows with an error beyond the tolerance, or with
  an undefined one, fails with a violation of the budget: state, accounts, counter and records stay
  as they are. -/
theorem ledger_within_tolerance [Ordered α] [Neutral α] {c : RunConfig α} {sink : σ}
    {start : Integrator α σ} (accepted : Integrator.new c sink = .ok start)
    (requests : List (Request σ)) :
    let i := start.observed.afterRequests (requests.map Request.observed)
    i.mapSink Observed.sink = start.afterRequests requests ∧
    (i.ledger.tolerance = c.budget.tolerance ∧ i.ledger.errorPercent ≤ i.ledger.tolerance ∧
      isNaN i.ledger.errorPercent = false) ∧
    (0 ≤ i.ledger.maxError ∧ (∀ r ∈ i.sink.records, r.ledgerError ≤ i.ledger.maxError) ∧
      (i.ledger.maxError = 0 ∨ ∃ r ∈ i.sink.records, i.ledger.maxError = r.ledgerError) ∧
      i.ledger.maxError ≤ i.ledger.tolerance) ∧
    ∀ s bins flows, i.lifecycle.IsLive → i.inputs = .ok s →
      s.evaluation.moveMass i.config s.dt s.delivered i.state.bins = some (bins, flows) →
      let accounts := i.ledger.record flows bins.totalMass
      ¬ accounts.errorPercent ≤ i.ledger.tolerance →
        i.stepOnce.result = .error (.step i.steps
          (.budgetViolation accounts.errorPercent i.ledger.tolerance accounts.discrepancy)) ∧
        i.stepOnce.after.state = i.state ∧ i.stepOnce.after.ledger = i.ledger ∧
        i.stepOnce.after.steps = i.steps ∧ i.stepOnce.after.sink.records = i.sink.records := by
  intro i
  have within : i.IsWithin := isWithin_afterRequests accepted requests
  obtain ⟨p, run, _⟩ := isRunOf_new accepted
  have kept : i.IsRunOf c p :=
    afterObserved_induction (P := fun j => j.IsRunOf c p) run.observed
      (fun _ kept => kept.stepOnce) fun _ _ _ kept => kept.withSink _ _
  obtain ⟨nonneg, above⟩ := within.le_maxError
  refine ⟨afterRequests_observed _ _, ⟨kept.tolerance, within.error,
    isNaN_eq_false_of_le within.error⟩, ⟨nonneg, above, within.maxError_mem, ?_⟩, ?_⟩
  · rcases within.maxError_mem with none | ⟨r, here, same⟩
    · rw [none, kept.tolerance]
      exact Ordered.le_of_lt (RunConfig.prepare_eq_ok kept.prepared).1.tolerance.1
    · rw [same]
      exact within.records r here
  · intro s bins flows live gathered moved accounts beyond
    have failed : accounts.check = .error
        (.budgetViolation accounts.errorPercent i.ledger.tolerance accounts.discrepancy) :=
      if_neg beyond
    refine ⟨stepOnce_of_check_error live gathered moved failed, ?_⟩
    rcases i.stepOnce_commits with ⟨_, same⟩ | ⟨s', r, _, _, _, gathered', passed, _⟩
    · exact ⟨same.state, same.ledger, same.steps, same.records⟩
    · obtain rfl := Except.ok.inj (gathered.symm.trans gathered')
      simp [advance_of_check_error moved failed] at passed

/-- The only step of the baseline run without a mass floor keeps the accounts within half a percent,
and the greatest error they have noted is that of its record, or zero. The first step of the run
with a steep supply of amplitude one moves its masses, but takes the accounts beyond the tolerance,
so it fails and is not committed. -/
theorem ledger_within_tolerance_single :
    (∃ start : Integrator ℝ (Obliging ℝ),
      Integrator.new (.enduring (some 1)) { answer := .ok () } = .ok start ∧
      let i := start.observed.afterRequests [.step]
      ∃ r, i.sink.records = [r] ∧ i.ledger.errorPercent ≤ 2⁻¹ ∧
        i.ledger.maxError ∈ Set.Icc 0 2⁻¹ ∧ i.ledger.maxError = max 0 r.ledgerError) ∧
    ∃ start : Integrator (Rounded .overflow) (MemorySink (Rounded .overflow)),
      Integrator.new (.steepOf 1) .empty = .ok start ∧
      let i := start.observed
      ∃ s bins flows, i.inputs = .ok s ∧
        s.evaluation.moveMass i.config s.dt s.delivered i.state.bins = some (bins, flows) ∧
        let accounts := i.ledger.record flows bins.totalMass
        ¬ accounts.errorPercent ≤ i.ledger.tolerance ∧
        i.stepOnce.result = .error (.step 0
          (.budgetViolation accounts.errorPercent i.ledger.tolerance accounts.discrepancy)) ∧
        i.stepOnce.after.state = i.state ∧ i.stepOnce.after.ledger = i.ledger ∧
        i.stepOnce.after.steps = 0 ∧ i.stepOnce.after.sink.records = [] := by
  constructor
  · obtain ⟨start, r, _, accepted, records, _⟩ := exists_new_single
    obtain ⟨_, ⟨tolerance, within, _⟩, ⟨nonneg, above, greatest, bounded⟩, _⟩ :=
      ledger_within_tolerance accepted [.step]
    have half : (RunConfig.enduring (some 1)).budget.tolerance = 2⁻¹ := by
      norm_num [RunConfig.enduring, RunConfig.default, BudgetSettings.default]
    have served : start.observed.afterRequests ([.step].map Request.observed)
        = start.observed.stepOnce.after := rfl
    rw [served, records] at above greatest
    rw [tolerance, half] at within bounded
    refine ⟨start, accepted, r, records, within, ⟨nonneg, bounded⟩, ?_⟩
    have error := above r (List.mem_singleton_self r)
    rcases greatest with none | ⟨r', member, same⟩
    · rw [none] at error
      exact none.trans (max_eq_left error).symm
    · rw [List.mem_singleton] at member
      rw [← member, ← same]
      exact (max_eq_right nonneg).symm
  · obtain ⟨start, accepted, initializing, s, bins, flows, gathered, moved, beyond⟩ :=
      exists_new_beyond (MemorySink.empty : MemorySink (Rounded .overflow))
    have fresh : start.steps = 0 := by
      obtain ⟨_, _, made⟩ := new_eq_ok accepted
      rw [made]
    obtain ⟨_, _, _, fails⟩ := ledger_within_tolerance accepted []
    obtain ⟨failed, state, ledger, steps, records⟩ :=
      fails s bins flows (.inl initializing) gathered moved beyond
    exact ⟨start, accepted, s, bins, flows, gathered, moved, beyond, fresh ▸ failed, state, ledger,
      steps.trans fresh, records⟩

end Integrator
end DebrisDisk
