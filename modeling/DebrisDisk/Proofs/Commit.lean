import DebrisDisk.Proofs.Outcome
import DebrisDisk.Run.Integrator
import DebrisDisk.Scalar.Binary64

/-!
# The commit of a step

A step first gathers its inputs from the committed state, then advances copies of the state and the
accounts, and only then replaces both together with the counter. `StepInputs` names what is gathered
and `Integrator.attempt_eq` splits an attempt at these two points, so that later statements need not
look into the attempt again.

What can still fail after the commit is the sink alone: the accounts of a step that passed pass
every later check (`Evaluation.check_of_advance`).

## Main results

* `Integrator.stepOnce_all_or_nothing`: a failed step has replaced nothing, or everything.
-/

namespace DebrisDisk
open Scalar DiagnosticsSink
variable {α σ : Type} [Scalar α]

/-! ## Accounts that passed a check -/

/-- Noting an error a second time changes nothing, also when it is undefined. -/
theorem Scalar.fmax_fmax_self (x y : α) : fmax (fmax x y) y = fmax x y := by
  simp only [fmax]
  by_cases less : y < x
  · simp [less]
  · by_cases undefined : isNaN y = true
    · simp [less, undefined]
    · simp [less, undefined]

namespace MassLedger

theorem check_eq_ok {l l' : MassLedger α} {error : α} (h : l.check = .ok (error, l')) :
    error = l.errorPercent ∧ error ≤ l.tolerance ∧
      l' = { l with maxError := fmax l.maxError error } := by
  simp only [check] at h
  split at h
  · rename_i within
    simp only [Except.ok.injEq, Prod.mk.injEq] at h
    obtain ⟨rfl, rfl⟩ := h
    exact ⟨rfl, within, rfl⟩
  · simp at h

theorem check_eq_error {l : MassLedger α} {e : StepError α} (h : l.check = .error e) :
    ¬ l.errorPercent ≤ l.tolerance ∧
      e = .budgetViolation l.errorPercent l.tolerance l.discrepancy := by
  simp only [check] at h
  split at h
  · simp at h
  · rename_i beyond
    simp only [Except.error.injEq] at h
    exact ⟨beyond, h.symm⟩

/-- Accounts in which a check was noted pass it again, with nothing left to note. -/
theorem check_of_check {l l' : MassLedger α} {error : α} (h : l.check = .ok (error, l')) :
    l'.check = .ok (error, l') := by
  obtain ⟨rfl, within, rfl⟩ := check_eq_ok h
  have same : { l with maxError := fmax l.maxError l.errorPercent }.errorPercent
      = l.errorPercent := rfl
  simp only [check]
  simp only [same, within, if_true, fmax_fmax_self]

end MassLedger

/-! ## The causes of a failed step -/

namespace StepError

/-- The cause lies in the phase or the vapor pressure of the grains. -/
def isOfVapor : StepError α → Bool
  | phaseUnresolvable _ _ | modelDomainExhausted _ _ => true
  | temperature _ | budgetViolation _ _ _ | sink _ => false

/-- The cause lies in the models that are evaluated before a step. -/
def isOfModels : StepError α → Bool
  | phaseUnresolvable _ _ | modelDomainExhausted _ _ | temperature _ => true
  | budgetViolation _ _ _ | sink _ => false

/-- The cause lies in the models or the accounts, not in the sink. -/
def isNumeric : StepError α → Bool
  | budgetViolation _ _ _ | phaseUnresolvable _ _ | modelDomainExhausted _ _ | temperature _ => true
  | sink _ => false

omit [Scalar α] in
theorem isOfModels_of_isOfVapor {e : StepError α} (h : e.isOfVapor = true) :
    e.isOfModels = true := by
  cases e <;> first | rfl | cases h

omit [Scalar α] in
theorem isNumeric_of_isOfModels {e : StepError α} (h : e.isOfModels = true) :
    e.isNumeric = true := by
  cases e <;> first | rfl | cases h

end StepError

theorem MassLedger.isNumeric_of_check {l : MassLedger α} {e : StepError α}
    (h : l.check = .error e) : e.isNumeric = true := by
  rw [(check_eq_error h).2]
  rfl

theorem PressureSelector.isOfVapor_of_select {s : PressureSelector α} {t : Temperature α}
    {e : StepError α} (h : s.select t = .error e) : e.isOfVapor = true := by
  simp only [select, bind_eq_error_iff, pure, Except.pure, reduceCtorEq, and_false, exists_false,
    or_false] at h
  simp only [law] at h
  split at h
  · split at h
    · simp at h
    · simp only [Except.error.injEq] at h
      rw [← h]
      rfl
  · simp at h

theorem PhaseSettings.isOfVapor_of_evaluate {s : PhaseSettings α} {selector : PressureSelector α}
    {ambient : Pressure α} {grains : Temperature α} {source : TemperatureSource} {tau : α}
    {e : StepError α} (h : s.evaluate selector ambient grains source tau = .error e) :
    e.isOfVapor = true := by
  simp only [evaluate] at h
  split at h
  · rcases bind_eq_error_iff.mp h with unselected | ⟨pressure, _, rest⟩
    · exact PressureSelector.isOfVapor_of_select unselected
    · generalize (if s.enabled = true then s.vaporFraction _ _ _ else 0) = fraction at rest
      split at rest
      · simp [pure, Except.pure] at rest
      · simp only [throw, throwThe, MonadExceptOf.throw, Except.error.injEq] at rest
        rw [← rest]
        rfl
  · simp only [Except.error.injEq] at h
    rw [← h]
    rfl

/-- An evaluation fails for want of a temperature, a phase or a vapor pressure. -/
theorem RunConfig.isOfModels_of_evaluate {c : RunConfig α} {selector : PressureSelector α}
    {state : DiskState α} {e : StepError α} (h : c.evaluate selector state = .error e) :
    e.isOfModels = true := by
  simp only [evaluate] at h
  simp only [bind_eq_error_iff] at h
  rcases h with cold | ⟨surface, _, unresolved | ⟨_, _, impossible⟩⟩
  · simp only [surfaceAt] at cold
    rcases bind_eq_error_iff.mp cold with missing | ⟨_, _, unusable⟩
    · obtain ⟨cause, _, rfl⟩ := mapError_eq_error_iff.mp missing
      rfl
    · split at unusable
      · simp [pure, Except.pure] at unusable
      · simp only [throw, throwThe, MonadExceptOf.throw, Except.error.injEq] at unusable
        rw [← unusable]
        rfl
  · exact StepError.isOfModels_of_isOfVapor (PhaseSettings.isOfVapor_of_evaluate unresolved)
  · simp [pure, Except.pure] at impossible

/-- An evaluation fails over the surface temperature just when there is none. -/
theorem RunConfig.evaluate_eq_temperature_iff {c : RunConfig α} {selector : PressureSelector α}
    {state : DiskState α} {e : TemperatureError α} :
    c.evaluate selector state = .error (.temperature e) ↔
      c.surfaceAt state.time = .error (.temperature e) := by
  simp only [evaluate, bind_eq_error_iff]
  constructor
  · rintro (missing | ⟨_, _, unresolved | ⟨_, _, impossible⟩⟩)
    · exact missing
    · cases PhaseSettings.isOfVapor_of_evaluate unresolved
    · simp [pure, Except.pure] at impossible
  · exact .inl

/-! ## Advancing copies -/

/-- A step that passed moved the mass, and the accounts with its flows passed the check. -/
theorem Evaluation.advance_eq_ok {e : Evaluation α} {c : RunConfig α} {step : Nat} {dt : Time α}
    {horizon : Option (Time α)} {delivered : α} {state : DiskState α} {ledger : MassLedger α}
    {r : Committed α} (h : e.advance c step dt horizon delivered state ledger = .ok r) :
    ∃ bins flows error, e.moveMass c dt delivered state.bins = some (bins, flows) ∧
      (ledger.record flows bins.totalMass).check = .ok (error, r.ledger) ∧
      r.state = e.stateAfter state (horizon.getD (state.time + dt)) bins flows ∧
      r.record = e.recordOf c step dt r.state error flows := by
  simp only [advance] at h
  split at h
  · simp at h
  · rename_i bins flows moved
    simp only [bind_eq_ok_iff, mapError_eq_ok_iff, pure, Except.pure, Except.ok.injEq] at h
    obtain ⟨⟨error, accounts⟩, checked, rfl⟩ := h
    exact ⟨bins, flows, error, moved, checked, rfl, rfl⟩

/-- A step that did not pass was refused by a bin, or its accounts failed the check. -/
theorem Evaluation.advance_eq_error {e : Evaluation α} {c : RunConfig α} {step : Nat} {dt : Time α}
    {horizon : Option (Time α)} {delivered : α} {state : DiskState α} {ledger : MassLedger α}
    {o : Obstacle α} (h : e.advance c step dt horizon delivered state ledger = .error o) :
    (e.moveMass c dt delivered state.bins = none ∧ o = .refused) ∨
    ∃ bins flows cause, e.moveMass c dt delivered state.bins = some (bins, flows) ∧
      (ledger.record flows bins.totalMass).check = .error cause ∧ o = .failed cause := by
  simp only [advance] at h
  split at h
  · rename_i stuck
    simp only [Except.error.injEq] at h
    exact .inl ⟨stuck, h.symm⟩
  · rename_i bins flows moved
    simp only [bind_eq_error_iff, mapError_eq_error_iff, pure, Except.pure, reduceCtorEq, and_false,
      exists_false, or_false] at h
    obtain ⟨cause, failed, rfl⟩ := h
    exact .inr ⟨bins, flows, cause, moved, failed, rfl⟩

/-- The accounts of a step that passed pass every later check, with nothing left to note. -/
theorem Evaluation.check_of_advance {e : Evaluation α} {c : RunConfig α} {step : Nat} {dt : Time α}
    {horizon : Option (Time α)} {delivered : α} {state : DiskState α} {ledger : MassLedger α}
    {r : Committed α} (h : e.advance c step dt horizon delivered state ledger = .ok r) :
    r.ledger.check = .ok (r.ledger.errorPercent, r.ledger) := by
  obtain ⟨_, _, error, _, checked, _, _⟩ := advance_eq_ok h
  have again := MassLedger.check_of_check checked
  rw [(MassLedger.check_eq_ok again).1] at again
  exact again

/-! ## The inputs of a step -/

/-- What a step starts from, gathered from the committed state before any mass moves. -/
structure StepInputs (α : Type) where
  evaluation : Evaluation α
  plan : StepPlan α
  dt : Time α
  /-- The step ends on the horizon. -/
  lands : Bool
  delivered : α
  /-- The random numbers after the delivery was drawn. -/
  random : Random.Generator
  begun : List (Event α)

namespace Integrator

/-- Gathers the inputs of the next step. -/
def inputs (i : Integrator α σ) : Except (StepError α) (StepInputs α) := do
  let evaluation ← i.config.evaluate i.selector i.state
  let (plan, planEvents) := i.planned evaluation.timescales
  let (dt, lands) := plan.next i.state.time
  let (delivered, random) := i.config.supply.sampleMass i.state.time dt i.random
  return { evaluation, plan, dt, lands, delivered, random, begun := evaluation.event :: planEvents }

theorem inputs_eq_error_iff {i : Integrator α σ} {e : StepError α} :
    i.inputs = .error e ↔ i.config.evaluate i.selector i.state = .error e := by
  simp [inputs, pure, Except.pure]

/-- The run once a step has its inputs: the plan is made and the random numbers are drawn. -/
def started (i : Integrator α σ) (s : StepInputs α) : Integrator α σ :=
  { i with plan := some s.plan, random := s.random }

/-- Advances copies of the committed state and accounts. -/
def advance (i : Integrator α σ) (s : StepInputs α) : Except (Obstacle α) (Committed α) :=
  s.evaluation.advance i.config i.steps s.dt (if s.lands then some s.plan.horizon else none)
    s.delivered i.state i.ledger

variable [DiagnosticsSink α σ]

/-- An attempt gathers its inputs, advances copies, and commits before the record is handed over. -/
theorem attempt_eq (i : Integrator α σ) :
    i.attempt = match i.inputs with
      | .error e => { after := i, result := .error (.failed e), events := [] }
      | .ok s => match i.advance s with
        | .error o => { after := i.started s, result := .error o, events := s.begun }
        | .ok r =>
          let rest := ((i.started s).commit r).handOver s.plan s.lands r.record
          { rest with
            events := (s.begun ++ r.event s.evaluation :: transitions i.state r.state)
              ++ rest.events } := by
  simp only [attempt, inputs]
  cases i.config.evaluate i.selector i.state with
  | error e => rfl
  | ok evaluation => rfl

/-! ## After the commit -/

/-- A run whose accounts pass the check unchanged ends, unless the sink cannot be finished. -/
theorem terminate_of_check {i : Integrator α σ} {error : α}
    (passed : i.ledger.check = .ok (error, i.ledger)) (reason : TerminationReason) :
    (i.terminate reason).after = { i with sink := (finish i.sink).1 } ∧
      (i.terminate reason).result = match (finish i.sink).2 with
        | .error e => .error (.failed (.sink e))
        | .ok () => .ok (some reason) := by
  simp only [terminate]
  rw [passed]
  simp only
  split <;> simp_all

/-- Handing over a record touches the sink alone, and nothing but the sink can fail there. -/
theorem handOver_of_check {i : Integrator α σ} {error : α}
    (passed : i.ledger.check = .ok (error, i.ledger)) (p : StepPlan α) (lands : Bool)
    (record : StepRecord α) :
    (∃ sink, (i.handOver p lands record).after = { i with sink }) ∧
      ∀ o, (i.handOver p lands record).result = .error o → ∃ cause, o = .failed (.sink cause) := by
  unfold handOver
  simp only
  split
  · rename_i cause _
    refine ⟨⟨_, rfl⟩, ?_⟩
    rintro o ⟨⟩
    exact ⟨cause, rfl⟩
  · split
    · exact ⟨⟨_, rfl⟩, by simp⟩
    · rename_i reason _
      -- The sink has changed meanwhile, the accounts have not.
      have ended :=
        terminate_of_check (i := { i with sink := (emit i.sink record).1 }) passed reason
      refine ⟨⟨_, ended.1⟩, fun o failed => ?_⟩
      rw [ended.2] at failed
      split at failed
      · rename_i cause _
        simp only [Except.error.injEq] at failed
        exact ⟨cause, failed.symm⟩
      · simp at failed

/-- What an attempt does to the committed state, by the point up to which it came. -/
theorem attempt_cases (i : Integrator α σ) :
    (∃ e, i.inputs = .error e ∧ e.isOfModels = true ∧
      i.attempt.after = i ∧ i.attempt.result = .error (.failed e)) ∨
    (∃ s o, i.inputs = .ok s ∧ i.advance s = .error o ∧
      i.attempt.after = i.started s ∧ i.attempt.result = .error o) ∨
    ∃ s r, i.inputs = .ok s ∧ i.advance s = .ok r ∧
      (∃ sink, i.attempt.after = { (i.started s).commit r with sink }) ∧
      ∀ o, i.attempt.result = .error o → ∃ cause, o = .failed (.sink cause) := by
  rw [attempt_eq]
  cases gathered : i.inputs with
  | error e =>
    have cause := RunConfig.isOfModels_of_evaluate (inputs_eq_error_iff.mp gathered)
    exact .inl ⟨e, rfl, cause, rfl, rfl⟩
  | ok s =>
    cases advanced : i.advance s with
    | error o => exact .inr (.inl ⟨s, o, rfl, advanced, by simp [advanced], by simp [advanced]⟩)
    | ok r =>
      have passed : ((i.started s).commit r).ledger.check
          = .ok (r.ledger.errorPercent, ((i.started s).commit r).ledger) :=
        Evaluation.check_of_advance advanced
      obtain ⟨sinkAlone, sinkFails⟩ := handOver_of_check passed s.plan s.lands r.record
      exact .inr (.inr ⟨s, r, rfl, advanced, by simpa [advanced] using sinkAlone,
        by simpa [advanced] using sinkFails⟩)

/-! ## All or nothing -/

omit [DiagnosticsSink α σ] in
/-- A step that is not refused fails to advance over its accounts alone. -/
theorem isNumeric_of_advance {i : Integrator α σ} {s : StepInputs α} {e : StepError α}
    (h : i.advance s = .error (.failed e)) : e.isNumeric = true := by
  rcases Evaluation.advance_eq_error h with ⟨_, refused⟩ | ⟨_, _, cause, _, failed, same⟩
  · simp at refused
  · simp only [Obstacle.failed.injEq] at same
    rw [same]
    exact MassLedger.isNumeric_of_check failed

/-- A live run makes one attempt in each call. -/
theorem stepOnce_of_live {i : Integrator α σ}
    (live : i.lifecycle = .initializing ∨ i.lifecycle = .stepping) :
    i.stepOnce = match i.attempt.result with
      | .ok none =>
        { after := { i.attempt.after with lifecycle := .stepping }, result := .stepping
          events := i.attempt.events }
      | .ok (some reason) =>
        { after := { i.attempt.after with lifecycle := .terminating reason }
          result := .terminated reason, events := i.attempt.events }
      | .error .refused =>
        { after := i.attempt.after, result := .refused, events := i.attempt.events }
      | .error (.failed e) =>
        { i.attempt.after.fail i.steps e with
          events := i.attempt.events ++ (i.attempt.after.fail i.steps e).events } := by
  rcases live with initializing | stepping
  · rcases attempt : i.attempt.result with (refused | failed) | (_ | ended)
      <;> simp only [stepOnce, initializing, attempt]
  · rcases attempt : i.attempt.result with (refused | failed) | (_ | ended)
      <;> simp only [stepOnce, stepping, attempt]

/-- A call that fails comes from an attempt that failed, and it finishes the sink. -/
theorem attempt_of_stepOnce_error {i : Integrator α σ} {step : Nat} {source : StepError α}
    (live : i.lifecycle = .initializing ∨ i.lifecycle = .stepping)
    (h : i.stepOnce.result = .error (.step step source)) :
    step = i.steps ∧ i.attempt.result = .error (.failed source) ∧
      i.stepOnce.after = { i.attempt.after with
        sink := (finish i.attempt.after.sink).1, lifecycle := .failed step } := by
  rw [stepOnce_of_live live] at h ⊢
  split at h <;> simp_all [fail]

/-- A call is refused exactly when a live run has gathered its inputs and a bin refuses to be drawn
from. -/
theorem stepOnce_eq_refused_iff {i : Integrator α σ} :
    i.stepOnce.result = .refused ↔
      (i.lifecycle = .initializing ∨ i.lifecycle = .stepping) ∧
        ∃ s, i.inputs = .ok s ∧
          s.evaluation.moveMass i.config s.dt s.delivered i.state.bins = none := by
  constructor
  · intro refused
    have live : i.lifecycle = .initializing ∨ i.lifecycle = .stepping := by
      simp only [stepOnce] at refused
      split at refused <;> simp_all
    refine ⟨live, ?_⟩
    have tried : i.attempt.result = .error .refused := by
      rw [stepOnce_of_live live] at refused
      split at refused <;> simp_all [fail]
    rcases i.attempt_cases with ⟨e, _, _, _, same⟩ | ⟨s, o, gathered, stuck, _, same⟩ |
      ⟨_, _, _, _, _, sinkFails⟩
    · rw [tried] at same
      cases same
    · rw [tried, Except.error.injEq] at same
      rw [← same] at stuck
      rcases Evaluation.advance_eq_error stuck with ⟨unmoved, _⟩ | ⟨_, _, _, _, _, other⟩
      · exact ⟨s, gathered, unmoved⟩
      · cases other
    · obtain ⟨_, other⟩ := sinkFails _ tried
      cases other
  · rintro ⟨live, s, gathered, unmoved⟩
    have stuck : i.advance s = .error .refused := by
      simp [advance, Evaluation.advance, unmoved]
    have tried : i.attempt.result = .error .refused := by
      simp [attempt_eq, gathered, stuck]
    simp [stepOnce_of_live live, tried]

omit [DiagnosticsSink α σ] in
/-- A step whose accounts do not pass the check does not pass. -/
theorem advance_of_check_error {i : Integrator α σ} {s : StepInputs α} {bins : SizeBins α}
    {flows : MassFlows α} {cause : StepError α}
    (moved : s.evaluation.moveMass i.config s.dt s.delivered i.state.bins = some (bins, flows))
    (failed : (i.ledger.record flows bins.totalMass).check = .error cause) :
    i.advance s = .error (.failed cause) := by
  simp only [advance, Evaluation.advance, moved, failed]
  rfl

/-- A live run whose accounts do not pass the check fails with its finding. -/
theorem stepOnce_of_check_error {i : Integrator α σ} {s : StepInputs α} {bins : SizeBins α}
    {flows : MassFlows α} {cause : StepError α}
    (live : i.lifecycle = .initializing ∨ i.lifecycle = .stepping) (gathered : i.inputs = .ok s)
    (moved : s.evaluation.moveMass i.config s.dt s.delivered i.state.bins = some (bins, flows))
    (failed : (i.ledger.record flows bins.totalMass).check = .error cause) :
    i.stepOnce.result = .error (.step i.steps cause) := by
  have tried : i.attempt.result = .error (.failed cause) := by
    simp [attempt_eq, gathered, advance_of_check_error moved failed]
  simp [stepOnce_of_live live, tried, fail]

/-- **All or nothing.** A live run whose step fails has failed at the counter it had before. Either
the cause lies in the models or the accounts, nothing that was committed has changed, and the sink
was finished without having seen a record; or the cause is the sink, and state, accounts and counter
are together those of one step that passed. The second check of the accounts, at the end of a run,
never fails. -/
theorem stepOnce_all_or_nothing (i : Integrator α σ)
    (live : i.lifecycle = .initializing ∨ i.lifecycle = .stepping) :
    (∀ step source, i.stepOnce.result = .error (.step step source) →
      step = i.steps ∧ i.stepOnce.after.lifecycle = .failed i.steps ∧
      ((source.isNumeric = true ∧ i.stepOnce.after.state = i.state ∧
          i.stepOnce.after.ledger = i.ledger ∧ i.stepOnce.after.steps = i.steps ∧
          i.stepOnce.after.sink = (finish i.sink).1) ∨
        ∃ cause s r, source = .sink cause ∧ i.inputs = .ok s ∧ i.advance s = .ok r ∧
          i.stepOnce.after.state = r.state ∧ i.stepOnce.after.ledger = r.ledger ∧
          i.stepOnce.after.steps = i.steps + 1)) ∧
    ∀ s r (sink : σ) reason e, i.inputs = .ok s → i.advance s = .ok r →
      ({ (i.started s).commit r with sink }.terminate reason).result = .error (.failed e) →
        ∃ cause, e = .sink cause := by
  constructor
  · intro step source failed
    obtain ⟨rfl, tried, after⟩ := attempt_of_stepOnce_error live failed
    refine ⟨rfl, by rw [after], ?_⟩
    rw [after]
    rcases i.attempt_cases with ⟨e, _, ofModels, unchanged, same⟩ |
      ⟨s, o, _, stuck, unchanged, same⟩ | ⟨s, r, gathered, advanced, ⟨sink, committed⟩, sinkFails⟩
    · rw [tried, Except.error.injEq, Obstacle.failed.injEq] at same
      rw [← same] at ofModels
      exact .inl ⟨StepError.isNumeric_of_isOfModels ofModels, by simp [unchanged]⟩
    · rw [tried, Except.error.injEq] at same
      rw [← same] at stuck
      exact .inl ⟨isNumeric_of_advance stuck, by simp [unchanged, started]⟩
    · obtain ⟨cause, same⟩ := sinkFails _ tried
      rw [Obstacle.failed.injEq] at same
      exact .inr ⟨cause, s, r, same, gathered, advanced, by simp [committed, commit, started]⟩
  · intro s r sink reason e _ advanced failed
    have passed := Evaluation.check_of_advance advanced
    rw [(terminate_of_check (i := { (i.started s).commit r with sink }) passed reason).2] at failed
    split at failed
    · rename_i cause _
      simp only [Except.error.injEq, Obstacle.failed.injEq] at failed
      exact ⟨cause, failed.symm⟩
    · simp at failed

/-- A run at its eighth step whose table of surface temperatures has ended. -/
def stranded : Integrator Float (MemorySink Float) where
  config := { RunConfig.default with
    temperature := { history := .table { rows := [], extrapolation := .fail }, absorption := 0.4 } }
  selector := .fixed (.clausius { solid := { a := 0, b := 0 }, liquid := none })
  state := {
    time := ⟨1⟩, bins := { edges := [], centres := [], masses := [], density := 1 }, surface := 0
    grains := 0, tau := 0, pathDepth := 0, floor := 0, model := none, phase := none
    totals := .zero }
  ledger := { initial := 1, totals := .zero, current := 1, tolerance := 1, maxError := 0 }
  random := .ofSeed 0
  sink := .empty
  horizon := ⟨2⟩
  plan := none
  lifecycle := .stepping
  steps := 7

/-- A run without a surface temperature fails at its counter, with nothing replaced. -/
theorem stranded_stepOnce :
    stranded.stepOnce.result = .error (.step 7 (.temperature (.outOfRange 1 0 0))) ∧
      stranded.stepOnce.after.lifecycle = .failed 7 ∧
      stranded.stepOnce.after.ledger = stranded.ledger ∧ stranded.stepOnce.after.steps = 7 := by
  have failed : stranded.stepOnce.result = .error (.step 7 (.temperature (.outOfRange 1 0 0))) :=
    rfl
  obtain ⟨_, lifecycle, ⟨_, _, ledger, steps, _⟩ | ⟨_, _, _, other, _⟩⟩ :=
    (stepOnce_all_or_nothing stranded (.inr rfl)).1 _ _ failed
  · exact ⟨failed, lifecycle, ledger, steps⟩
  · cases other

end Integrator
end DebrisDisk
