import DebrisDisk.Proofs.Exact.Unbound
import DebrisDisk.Proofs.Lockstep

/-!
# Competitors that do not act

The gate attributes to blow-out its share of the combined rate of blow-out and a competing process.
A competitor that is switched off has no finite timescale, so the share is exactly one, and the plan
of a step is that of a gate without a competitor. Only the decision still names the competitor. So a
run whose competitor does not act and the same run without a competitor are twins, for any number
type.

## Main results

* `RunConfig.alike_ungated`: the gate of an idle competitor changes no step.
* `Integrator.idle_competition`: the runs with and without the gate go in lockstep.
-/

namespace DebrisDisk
open Scalar DiagnosticsSink
variable {α σ τ : Type}

/-! ## The gate without a competitor -/

/-- The decision of a gate without a competitor. -/
def GateDecision.ungated (d : GateDecision α) : GateDecision α := { d with mode := .none }

namespace RunConfig

/-- The configuration without a competitor for blow-out. -/
def ungated (c : RunConfig α) : RunConfig α :=
  { c with blowout := { c.blowout with gateMode := .none } }

/-- Blow-out is in competition with a process that is switched off. -/
def IsUncontested (c : RunConfig α) : Prop :=
  (c.blowout.gateMode = .collision ∧ c.collisions.enabled = false) ∨
    (c.blowout.gateMode = .sublimation ∧ c.sublimation.enabled = false)

end RunConfig

variable [Scalar α]

/-! ## One step -/

section Step
variable {c : RunConfig α} {e : Evaluation α} {selector : PressureSelector α} {state : DiskState α}

/-- A competitor that is switched off has no timescale. -/
theorem RunConfig.IsUncontested.competing (idle : c.IsUncontested) (h : e.IsOf c selector state) :
    c.blowout.gateMode.competing e.timescales = .infinite := by
  rcases idle with ⟨mode, off⟩ | ⟨mode, off⟩
  · rw [mode, h.timescales]
    simp [GateMode.competing, CollisionSettings.timescale, off]
  · obtain ⟨pressure, _, rates⟩ := h.phase
    rw [mode, h.timescales, rates]
    simp [GateMode.competing, SublimationSettings.rates, SublimationRates.inactive, off]

/-- The plan of a step is that without a competitor, except for the name of the competitor. -/
theorem RunConfig.IsUncontested.blowoutPlan (idle : c.IsUncontested) (h : e.IsOf c selector state)
    (dt : Time α) :
    e.blowoutPlan c.ungated dt =
      { decision := (e.blowoutPlan c dt).decision.ungated
        removal := (e.blowoutPlan c dt).removal } := by
  have share : gateFactor e.timescales.blow (c.blowout.gateMode.competing e.timescales) = 1 := by
    rw [idle.competing h, gateFactor_infinite]
  have unshared : gateFactor e.timescales.blow (GateMode.none.competing e.timescales) = 1 :=
    gateFactor_infinite _
  simp only [Evaluation.blowoutPlan, BlowoutSettings.plan, ungated, share, unshared,
    GateDecision.ungated]
  rfl

/-- The same mass is moved without a competitor. -/
theorem RunConfig.IsUncontested.moveMass (idle : c.IsUncontested) (h : e.IsOf c selector state)
    (dt : Time α) (delivered : α) (bins : SizeBins α) :
    e.moveMass c.ungated dt delivered bins = e.moveMass c dt delivered bins := by
  simp only [Evaluation.moveMass, idle.blowoutPlan h]
  rfl

/-- The same report is made without a competitor, except for the name of the competitor. -/
theorem RunConfig.IsUncontested.recordOf (idle : c.IsUncontested) (h : e.IsOf c selector state)
    (step : Nat) (dt : Time α) (after : DiskState α) (ledgerError : α) (flows : MassFlows α) :
    e.recordOf c.ungated step dt after ledgerError flows =
      (e.recordOf c step dt after ledgerError flows).mapGate GateDecision.ungated := by
  simp only [Evaluation.recordOf, idle.blowoutPlan h]
  rfl

/-- The same step is committed without a competitor, except for the name of the competitor. -/
theorem RunConfig.IsUncontested.advance (idle : c.IsUncontested) (h : e.IsOf c selector state)
    (step : Nat) (dt : Time α) (horizon : Option (Time α)) (delivered : α)
    (ledger : MassLedger α) :
    e.advance c.ungated step dt horizon delivered state ledger =
      (e.advance c step dt horizon delivered state ledger).map
        (Committed.mapGate GateDecision.ungated) := by
  simp only [Evaluation.advance, idle.moveMass h]
  cases moved : e.moveMass c dt delivered state.bins with
  | none => rfl
  | some r =>
    cases checked : (ledger.record r.2 r.1.totalMass).check with
    | error cause => simp [checked, Except.mapError, bind, Except.bind, Except.map]
    | ok accounts =>
      simp [checked, Except.mapError, bind, Except.bind, pure, Except.pure, Except.map,
        Committed.mapGate, idle.recordOf h]

end Step

/-- A competitor that is switched off changes no step, except that the records name it. -/
theorem RunConfig.alike_ungated {c : RunConfig α} (idle : c.IsUncontested) :
    c.Alike GateDecision.ungated Eq c.ungated where
  disk := rfl
  solar := rfl
  numerics := rfl
  evaluate _ _ := rfl
  supply := by
    rintro t dt g _ rfl
    exact ⟨rfl, rfl⟩
  advance evaluated step dt horizon delivered ledger :=
    idle.advance (evaluate_eq_ok evaluated) step dt horizon delivered ledger

/-! ## Main result -/

namespace Integrator
variable [DiagnosticsSink α σ] [DiagnosticsSink α τ] {S : σ → τ → Prop}

/-- **An idle competitor leaves no trace.** Let blow-out be in competition with collisions or with
sublimation, and let that process be switched off. Hand the records of a run to one sink and those
of the same run without a competitor to another, which answers alike to records that do not name the
competitor. Either both runs are rejected, with the same error, or both are accepted. Then after
every session both have the same plan, state, accounts, random numbers and stage, and they have
committed the same steps, whose records differ in nothing but the name of the competitor. One more
call, or a request for all steps that are left, is answered alike as well, with the same error,
reason or summary and the same announcements. -/
theorem idle_competition {c : RunConfig α} (idle : c.IsUncontested)
    (alike : SinksAlike GateDecision.ungated S) {s : σ} {t : τ} (sinks : S s t) :
    (∀ i, Integrator.new c s = .ok i → ∃ j, Integrator.new c.ungated t = .ok j ∧
      ∀ demands : List Demand,
        let p := i.session demands
        let q := j.session demands
        p.Twin GateDecision.ungated Eq S q ∧
        p.after.stepOnce.Twin GateDecision.ungated Eq S q.after.stepOnce ∧
        p.after.run.Twin GateDecision.ungated Eq S q.after.run) ∧
    ∀ e s' events, Integrator.new c s = .error (e, s', events) →
      ∃ t', S s' t' ∧ Integrator.new c.ungated t = .error (e, t', events) := by
  have prepare : c.ungated.prepare = c.prepare := rfl
  refine ⟨fun i accepted => ?_, fun e s' events rejected => ?_⟩
  · obtain ⟨j, accepted', twin⟩ :=
      twin_new (RunConfig.alike_ungated idle) prepare rfl sinks accepted
    refine ⟨j, accepted', fun demands => ?_⟩
    have sessions := twin.session alike demands
    exact ⟨sessions, sessions.after.stepOnce alike, sessions.after.run alike⟩
  · exact new_eq_error alike prepare sinks rejected

/-- A step of unbound grains in competition with collisions, which are switched off, differs from
that without a competitor in what the record calls the competitor. The sinks have kept both
records. -/
theorem idle_competition_unbound :
    ∃ (start start' : Integrator ℝ (MemorySink ℝ)) (r r' : Committed ℝ),
      Integrator.new (.unbound .collision 60000) .empty = .ok start ∧
      Integrator.new (.unbound .none 60000) .empty = .ok start' ∧
      (start.session [.step]).trace = [r] ∧ (start'.session [.step]).trace = [r'] ∧
      r.record.gate.mode = .collision ∧ r'.record.gate.mode = .none ∧
      r'.state = r.state ∧ r'.ledger = r.ledger ∧
      r'.record = { r.record with gate := r.record.gate.ungated } ∧
      (start.session [.step]).after.sink.records = [r.record] ∧
      (start'.session [.step]).after.sink.records = [r'.record] := by
  have idle : (RunConfig.unbound .collision 60000).IsUncontested := .inl ⟨rfl, rfl⟩
  obtain ⟨start, r, _, accepted, one, _, _, _, kept⟩ :=
    exists_steps_unbound .collision 60000 (by norm_num) (by norm_num)
      (MemorySink.empty : MemorySink ℝ) (fun _ => rfl) fun _ _ => rfl
  obtain ⟨start', accepted', lockstep⟩ :=
    (idle_competition idle (MemorySink.sinksAlike _) rfl).1 start accepted
  have sessions := (lockstep [.step]).1
  have traces := sessions.trace
  rw [one] at traces
  obtain ⟨p, run, _⟩ := isRunOf_new accepted
  have first : (start.session [.step]).trace[0]? = some r := by rw [one]; rfl
  obtain ⟨j, s, followed, _, _, passed, _⟩ :=
    step_of_session (P := fun j => j.IsRunOf (.unbound .collision 60000) p) run
      (fun _ kept => kept.stepOnce) first
  obtain ⟨_, _, _, _, _, _, record⟩ := Evaluation.advance_eq_ok passed
  have mode : r.record.gate.mode = .collision := by
    rw [record, followed.config]
    rfl
  have kept' := sessions.after.sink
  rw [kept] at kept'
  exact ⟨start, start', r, r.mapGate GateDecision.ungated, accepted, accepted', one, traces, mode,
    rfl, rfl, rfl, rfl, by rw [kept]; rfl, by rw [kept']; rfl⟩

end Integrator
end DebrisDisk
