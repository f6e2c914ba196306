import DebrisDisk.Proofs.Exact.Enduring

/-!
# The books of a run

A run keeps three books. The state and the accounts each hold the sum of all flows, and every record
reports the flows of one step. The flows are added in the same order everywhere, so the books agree
to the last bit, for any number type. `Integrator.IsBooked` is the invariant: the accounts hold what
the records add up to and what the bins weigh, and the records are counted and dated by the state.

## Main results

* `Integrator.booked_of_advance`: how a step that passed is booked.
* `Integrator.isBooked_afterRequests`: the accounts of every accepted run are those of its records.
* `Integrator.books_agree`: the three books agree, and a summary closes them.
-/

namespace DebrisDisk
open Scalar DiagnosticsSink

namespace Integrator
variable {α σ : Type} [Scalar α]

/-- The accounts hold what the records add up to and what the bins weigh. The records are counted,
the last of them is dated by the state, and a run ends with a record. -/
structure IsBooked (i : Integrator α (Observed α σ)) : Prop where
  totals : i.ledger.totals = (i.sink.records.map (·.removed)).foldl (· + ·) .zero
  current : i.ledger.current = i.state.totalMass.kilograms
  counted : i.sink.records.length = i.steps
  dated : ∀ r, i.sink.records.getLast? = some r → r.time = i.state.time.seconds
  ended : ∀ reason, i.lifecycle = .terminating reason → i.sink.records ≠ []

/-- A step that passed adds the flows of its record to the accounts, weighs the bins and dates its
record. -/
theorem booked_of_advance {i : Integrator α σ} {s : StepInputs α} {r : Committed α}
    (passed : i.advance s = .ok r) :
    r.ledger.totals = i.ledger.totals + r.record.removed ∧
      r.ledger.current = r.state.totalMass.kilograms ∧ r.record.time = r.state.time.seconds := by
  obtain ⟨bins, flows, error, _, checked, state, record⟩ := Evaluation.advance_eq_ok passed
  rw [(MassLedger.check_eq_ok checked).2.2, record, state]
  exact ⟨rfl, rfl, rfl⟩

namespace IsBooked
variable {i : Integrator α (Observed α σ)}

/-- A call that commits nothing leaves the books as they are. -/
theorem kept (booked : i.IsBooked) {j : Integrator α (Observed α σ)}
    (same : i.CommitsNothing j) : j.IsBooked where
  totals := by rw [same.ledger, same.records, booked.totals]
  current := by rw [same.ledger, same.state, booked.current]
  counted := by rw [same.records, same.steps, booked.counted]
  dated r last := by rw [same.state, booked.dated r (same.records ▸ last)]
  ended reason stage := same.records ▸ booked.ended reason (same.unended reason stage)

/-- A step that passed is booked with its record. -/
theorem committed (booked : i.IsBooked) {s : StepInputs α} {r : Committed α}
    (passed : i.advance s = .ok r) {sink : Observed α σ}
    (records : sink.records = i.sink.records ++ [r.record]) (lifecycle : Lifecycle) :
    IsBooked { (i.started s).commit r with sink, lifecycle } := by
  obtain ⟨totals, current, time⟩ := booked_of_advance passed
  exact {
    totals := by simp [records, totals, booked.totals]
    current := current
    counted := by simp [records, booked.counted]
    dated := by simp [records, time]
    ended := by simp [records] }

variable [DiagnosticsSink α σ]

/-- One call keeps the books. -/
theorem stepOnce (booked : i.IsBooked) : i.stepOnce.after.IsBooked := by
  rcases i.stepOnce_commits with ⟨_, same⟩ | ⟨s, r, sink, lifecycle, _, _, passed, sent, after⟩
  · exact booked.kept same
  · rw [after]
    exact booked.committed passed sent lifecycle

/-- A summary closes the books. -/
theorem run_summary (booked : i.IsBooked) {s : RunSummary α} (answer : i.run.result = .summary s) :
    s.ledger = i.run.after.ledger ∧ s.finalMass.kilograms = s.ledger.current ∧
      s.steps = i.run.after.sink.records.length ∧
      ∃ r, i.run.after.sink.records.getLast? = some r ∧ s.finalTime.seconds = r.time := by
  obtain ⟨n, _, last, result⟩ := i.loop_calls
  rw [run_result] at answer
  rw [answer] at result
  obtain ⟨terminated, same⟩ := terminated_of_summary result
  have stage := lifecycle_of_terminated terminated
  rw [run_after, last, afterCalls_succ, same]
  have closed : (i.afterCalls n).stepOnce.after.IsBooked :=
    afterCalls_induction booked (fun _ kept => kept.stepOnce) (n + 1)
  have some := List.getLast?_eq_some_getLast (closed.ended s.reason stage)
  exact ⟨rfl, closed.current.symm, closed.counted.symm, _, some, (closed.dated _ some).symm⟩

end IsBooked

variable [DiagnosticsSink α σ]

/-- The accounts of every accepted run are those of its records. -/
theorem isBooked_afterRequests {c : RunConfig α} {sink : σ} {start : Integrator α σ}
    (accepted : Integrator.new c sink = .ok start) (requests : List (Request σ)) :
    (start.observed.afterRequests (requests.map Request.observed)).IsBooked := by
  refine afterObserved_induction ?_ (fun _ booked => booked.stepOnce) fun _ _ _ booked => ?_
  · obtain ⟨p, prepared, rfl⟩ := new_eq_ok accepted
    obtain ⟨_, _, _, bins, _, state, _, ledger⟩ := RunConfig.prepare_eq_ok prepared
    exact {
      totals := by rw [observed, mapSink, ledger]; rfl
      current := by rw [observed, mapSink, ledger, state]; rfl
      counted := rfl
      dated := by simp [observed, mapSink, Observed.of, Observed.records]
      ended := by simp [observed, mapSink] }
  · exact booked.kept (.change _ _)

/-- **The books agree.** Take an accepted run after any sequence of requests, behind an observer,
which changes nothing. The totals of the state are those of the accounts, and both are the flows of
all records that were handed over, added in order; the accounts hold the mass of the bins, and they
began with the mass that the run was opened with. A request for the whole run that is answered with
a summary closes the books: the final mass is what the accounts hold, the steps are as many as the
records, and the final time is that of the last record. Nothing is rounded twice, so this holds for
every number type. -/
theorem books_agree {c : RunConfig α} {sink : σ} {start : Integrator α σ}
    (accepted : Integrator.new c sink = .ok start) (requests : List (Request σ)) :
    let i := start.observed.afterRequests (requests.map Request.observed)
    i.mapSink Observed.sink = start.afterRequests requests ∧
    i.state.totals = i.ledger.totals ∧
    i.ledger.totals = (i.sink.records.map (·.removed)).foldl (· + ·) .zero ∧
    i.ledger.current = i.state.totalMass.kilograms ∧
    i.ledger.initial = start.ledger.initial ∧
    ∀ s, i.run.result = .summary s →
      s.ledger = i.run.after.ledger ∧ s.finalMass.kilograms = s.ledger.current ∧
        s.steps = i.run.after.sink.records.length ∧
        ∃ r, i.run.after.sink.records.getLast? = some r ∧ s.finalTime.seconds = r.time := by
  intro i
  have booked : i.IsBooked := isBooked_afterRequests accepted requests
  obtain ⟨p, run, _, ledger⟩ := isRunOf_new accepted
  have kept : i.IsRunOf c p :=
    afterObserved_induction (P := fun j => j.IsRunOf c p) run.observed
      (fun _ kept => kept.stepOnce) fun _ _ _ kept => kept.withSink _ _
  refine ⟨afterRequests_observed _ _, kept.totals, booked.totals, booked.current, ?_,
    fun s answer => booked.run_summary answer⟩
  rw [kept.initial, ledger]

/-- The baseline run without a mass floor is closed by its only step: its accounts are the flows of
one record, and its summary is dated by that record. -/
theorem books_agree_single :
    ∃ start : Integrator ℝ (Obliging ℝ),
      Integrator.new (.enduring (some 1)) { answer := .ok () } = .ok start ∧
      let i := start.observed.afterRequests [.step]
      ∃ r s, i.sink.records = [r] ∧ i.state.totals = .zero + r.removed ∧
        i.run.result = .summary s ∧ s.steps = 1 ∧ s.finalTime.seconds = r.time := by
  obtain ⟨start, r, reason, accepted, records, _, _, stage⟩ := exists_new_single
  have served : start.observed.afterRequests ([.step].map Request.observed)
      = start.observed.stepOnce.after := rfl
  obtain ⟨_, unchanged, answer⟩ := run_of_terminating stage
  obtain ⟨_, totals, booked, _, _, closes⟩ := books_agree accepted [.step]
  rw [served] at totals booked closes
  obtain ⟨_, _, steps, last, latest, time⟩ := closes _ answer
  rw [unchanged, records] at steps latest
  obtain rfl : r = last := by simpa using latest
  refine ⟨start, accepted, r, _, records, totals.trans ?_, answer, steps, time⟩
  simpa [records] using booked

end Integrator
end DebrisDisk
