import DebrisDisk.Proofs.Commit
import DebrisDisk.Proofs.Evaluation
import DebrisDisk.Proofs.Validation

/-!
# Trajectories of a run

A run is driven by calls that make one step each. `Integrator.CallEffect` says what a single call
can do to it, and `Integrator.afterCalls` is the run after any number of calls. A property of the
committed state holds along a trajectory when it holds at the start and every commit preserves it.

`Integrator.IsRunOf` collects what every run keeps of its preparation: the configuration, the vapor
pressure laws, the horizon, the initial mass and the tolerance of the accounts. A plan, once made,
is that of the numerics for some proper timescales, and state and accounts agree on the total flows.

## Main results

* `Integrator.stepOnce_effect`: a call keeps what was committed, or commits one step that passed.
* `Integrator.isRunOf_afterCalls`: every run that was accepted keeps its preparation.
-/

namespace DebrisDisk
open Scalar DiagnosticsSink
variable {α σ : Type} [Scalar α]

/-! ## The inputs of a step -/

/-- How the inputs of a step follow from the run. -/
structure StepInputs.IsOf (s : StepInputs α) (i : Integrator α σ) : Prop where
  evaluation : s.evaluation.IsOf i.config i.selector i.state
  plan : s.plan = (i.planned s.evaluation.timescales).1
  next : (s.dt, s.lands) = s.plan.next i.state.time
  delivered : (s.delivered, s.random) = i.config.supply.sampleMass i.state.time s.dt i.random

namespace Integrator

theorem inputs_eq_ok {i : Integrator α σ} {s : StepInputs α} (h : i.inputs = .ok s) :
    s.IsOf i := by
  simp only [inputs, bind_eq_ok_iff, pure, Except.pure, Except.ok.injEq] at h
  obtain ⟨evaluation, evaluated, rfl⟩ := h
  exact {
    evaluation := RunConfig.evaluate_eq_ok evaluated
    plan := rfl, next := rfl, delivered := rfl }

/-! ## One call -/

variable [DiagnosticsSink α σ]

/-- What one call makes of a run. -/
inductive CallEffect (i : Integrator α σ) : Integrator α σ → Prop where
  | kept (sink : σ) (lifecycle : Lifecycle) : CallEffect i { i with sink, lifecycle }
  | blocked (s : StepInputs α) (o : Obstacle α) (gathered : i.inputs = .ok s)
      (stuck : i.advance s = .error o) (sink : σ) (lifecycle : Lifecycle) :
      CallEffect i { i.started s with sink, lifecycle }
  | committed (s : StepInputs α) (r : Committed α) (gathered : i.inputs = .ok s)
      (passed : i.advance s = .ok r) (sink : σ) (lifecycle : Lifecycle) :
      CallEffect i { (i.started s).commit r with sink, lifecycle }

/-- A call replaces the sink and the stage of what its attempt has left. -/
theorem stepOnce_after (i : Integrator α σ) :
    (∃ lifecycle, i.stepOnce.after = { i with lifecycle }) ∨
      ∃ sink lifecycle, i.stepOnce.after = { i.attempt.after with sink, lifecycle } := by
  unfold stepOnce
  split
  · exact .inl ⟨i.lifecycle, rfl⟩
  · exact .inl ⟨i.lifecycle, rfl⟩
  all_goals
    right
    simp only
    split
    · exact ⟨_, _, rfl⟩
    · exact ⟨_, _, rfl⟩
    · exact ⟨i.attempt.after.sink, i.attempt.after.lifecycle, rfl⟩
    · exact ⟨_, _, rfl⟩

/-- A call keeps what was committed, or commits one step that passed. -/
theorem stepOnce_effect (i : Integrator α σ) : CallEffect i i.stepOnce.after := by
  rcases i.stepOnce_after with ⟨lifecycle, after⟩ | ⟨sink, lifecycle, after⟩
  · rw [after]
    exact .kept i.sink lifecycle
  · rw [after]
    rcases i.attempt_cases with ⟨_, _, _, unchanged, _⟩ | ⟨s, o, gathered, stuck, started, _⟩ |
      ⟨s, r, gathered, passed, ⟨_, committed⟩, _⟩
    · rw [unchanged]
      exact .kept sink lifecycle
    · rw [started]
      exact .blocked s o gathered stuck sink lifecycle
    · rw [committed]
      exact .committed s r gathered passed sink lifecycle

/-! ## Any number of calls -/

/-- The run after `n` calls. -/
def afterCalls (i : Integrator α σ) : Nat → Integrator α σ
  | 0 => i
  | n + 1 => (i.afterCalls n).stepOnce.after

@[simp] theorem afterCalls_zero (i : Integrator α σ) : i.afterCalls 0 = i := rfl

@[simp] theorem afterCalls_succ (i : Integrator α σ) (n : Nat) :
    i.afterCalls (n + 1) = (i.afterCalls n).stepOnce.after := rfl

/-- What every call preserves holds along the whole trajectory. -/
theorem afterCalls_induction {P : Integrator α σ → Prop} {i : Integrator α σ} (start : P i)
    (call : ∀ j, P j → P j.stepOnce.after) (n : Nat) : P (i.afterCalls n) := by
  induction n with
  | zero => exact start
  | succ n ih => exact call _ ih

/-! ## What a run keeps -/

/-- A run of a configuration from a preparation of it. -/
structure IsRunOf (i : Integrator α σ) (c : RunConfig α) (p : Preparation α) : Prop where
  prepared : c.prepare = .ok p
  config : i.config = c
  selector : i.selector = p.selector
  horizon : i.horizon = p.horizon
  initial : i.ledger.initial = p.ledger.initial
  tolerance : i.ledger.tolerance = c.budget.tolerance
  totals : i.state.totals = i.ledger.totals
  plan : ∀ q, i.plan = some q →
    ∃ timescales : TimescaleSet α, timescales.IsProper ∧ q = c.numerics.plan p.horizon timescales

namespace IsRunOf
variable {i : Integrator α σ} {c : RunConfig α} {p : Preparation α}

omit [DiagnosticsSink α σ] in
/-- The sink and the stage of a run are not part of it. -/
theorem withSink (h : i.IsRunOf c p) (sink : σ) (lifecycle : Lifecycle) :
    ({ i with sink, lifecycle } : Integrator α σ).IsRunOf c p where
  prepared := h.prepared
  config := h.config
  selector := h.selector
  horizon := h.horizon
  initial := h.initial
  tolerance := h.tolerance
  totals := h.totals
  plan := h.plan

omit [DiagnosticsSink α σ] in
/-- The plan that a step follows is made from proper timescales. -/
theorem plan_of_inputs (h : i.IsRunOf c p) {s : StepInputs α} (inputs : s.IsOf i) :
    ∃ timescales : TimescaleSet α,
      timescales.IsProper ∧ s.plan = c.numerics.plan p.horizon timescales := by
  rw [inputs.plan]
  simp only [planned]
  cases made : i.plan with
  | some q => exact h.plan q made
  | none =>
    rw [← h.config, ← h.horizon]
    exact ⟨_, inputs.evaluation.isProper_timescales, rfl⟩

omit [DiagnosticsSink α σ] in
theorem started (h : i.IsRunOf c p) {s : StepInputs α} (inputs : s.IsOf i) :
    (i.started s).IsRunOf c p where
  prepared := h.prepared
  config := h.config
  selector := h.selector
  horizon := h.horizon
  initial := h.initial
  tolerance := h.tolerance
  totals := h.totals
  plan q made := by
    simp only [Integrator.started, Option.some.injEq] at made
    rw [← made]
    exact h.plan_of_inputs inputs

omit [DiagnosticsSink α σ] in
theorem commit (h : i.IsRunOf c p) {s : StepInputs α} (inputs : s.IsOf i) {r : Committed α}
    (passed : i.advance s = .ok r) : ((i.started s).commit r).IsRunOf c p := by
  obtain ⟨bins, flows, error, _, checked, state, _⟩ := Evaluation.advance_eq_ok passed
  have ledger := (MassLedger.check_eq_ok checked).2.2
  have base := h.started inputs
  exact {
    prepared := h.prepared
    config := h.config
    selector := h.selector
    horizon := h.horizon
    initial := by simpa [Integrator.commit, ledger, MassLedger.record] using h.initial
    tolerance := by simpa [Integrator.commit, ledger, MassLedger.record] using h.tolerance
    totals := by
      simp [Integrator.commit, ledger, state, MassLedger.record, Evaluation.stateAfter, h.totals]
    plan := base.plan }

/-- One call keeps the preparation. -/
theorem stepOnce (h : i.IsRunOf c p) : i.stepOnce.after.IsRunOf c p := by
  have effect := i.stepOnce_effect
  generalize i.stepOnce.after = after at effect
  cases effect with
  | kept sink lifecycle => exact h.withSink sink lifecycle
  | blocked s o gathered _ sink lifecycle =>
    exact (h.started (inputs_eq_ok gathered)).withSink sink lifecycle
  | committed s r gathered passed sink lifecycle =>
    exact (h.commit (inputs_eq_ok gathered) passed).withSink sink lifecycle

end IsRunOf

/-- An accepted run is one of its configuration. -/
theorem isRunOf_new {c : RunConfig α} {sink : σ} {i : Integrator α σ}
    (accepted : Integrator.new c sink = .ok i) :
    ∃ p, i.IsRunOf c p ∧ i.state = p.state ∧ i.ledger = p.ledger := by
  obtain ⟨p, prepared, rfl⟩ := new_eq_ok accepted
  obtain ⟨_, _, _, bins, _, state, _, ledger⟩ := RunConfig.prepare_eq_ok prepared
  refine ⟨p, ?_, rfl, rfl⟩
  exact {
    prepared, config := rfl, selector := rfl, horizon := rfl, initial := rfl
    tolerance := by rw [ledger]
    totals := by rw [ledger, state]; rfl
    plan := by simp }

/-- Every run that was accepted keeps its preparation. -/
theorem isRunOf_afterCalls {c : RunConfig α} {p : Preparation α} {i : Integrator α σ}
    (h : i.IsRunOf c p) (n : Nat) : (i.afterCalls n).IsRunOf c p :=
  afterCalls_induction (P := fun j => j.IsRunOf c p) h (fun _ kept => kept.stepOnce) n

end Integrator
end DebrisDisk
