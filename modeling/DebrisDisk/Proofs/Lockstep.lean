import DebrisDisk.Proofs.Driving

/-!
# Runs in lockstep

Two runs are twins when they agree in everything but what belongs to each of them alone: its
configuration, its random numbers and its sink. `RunConfig.Alike` asks of two configurations what
keeps twins twins: they evaluate every state alike, they commit the same step from an evaluation,
and they are supplied alike while their random numbers correspond. The decision of the gate may read
differently in the two records of a step, and each sink is handed its own one, so sinks have to
answer alike to records that differ by this reading.

A call to one twin is answered like a call to the other, and the runs afterwards are twins again.
The induction over the calls of a session then compares whole runs.

## Main results

* `Integrator.Twin.stepOnce`, `Integrator.Twin.run`: twins answer alike and stay twins.
* `Integrator.Twin.session`: so they do over a whole session, with the same trace.
* `Integrator.twin_new`: alike configurations with the same preparation start twins.
-/

namespace DebrisDisk
open Scalar DiagnosticsSink
variable {α σ τ ρ : Type}

/-! ## Reading the decision of the gate differently -/

/-- The record with another reading of the gate's decision. -/
def StepRecord.mapGate (f : GateDecision α → GateDecision α) (r : StepRecord α) : StepRecord α :=
  { r with gate := f r.gate }

/-- The step with another reading of the gate's decision. -/
def Committed.mapGate (f : GateDecision α → GateDecision α) (r : Committed α) : Committed α :=
  { r with record := r.record.mapGate f }

/-- Two sinks answer alike, and alike afterwards, when each is handed its own reading. -/
structure SinksAlike [DiagnosticsSink α σ] [DiagnosticsSink α τ]
    (f : GateDecision α → GateDecision α) (S : σ → τ → Prop) : Prop where
  emit : ∀ {s t}, S s t → ∀ r, (emit t (r.mapGate f)).2 = (emit s r).2 ∧
    S (emit s r).1 (emit t (r.mapGate f)).1
  finish : ∀ {s t}, S s t → (finish t).2 = (finish s).2 ∧ S (finish s).1 (finish t).1

/-- The sink with another reading of all its records. -/
def MemorySink.mapGate (f : GateDecision α → GateDecision α) (s : MemorySink α) : MemorySink α :=
  { s with records := s.records.map (StepRecord.mapGate f) }

/-- Sinks that keep the records they are handed answer alike. -/
theorem MemorySink.sinksAlike (f : GateDecision α → GateDecision α) :
    SinksAlike f fun s t : MemorySink α => t = s.mapGate f where
  emit := by
    rintro s t rfl r
    cases finished : s.finished <;>
      simp [DiagnosticsSink.emit, MemorySink.emit, MemorySink.mapGate, finished]
  finish := by
    rintro s t rfl
    exact ⟨rfl, rfl⟩

/-! ## Twins -/

variable {f : GateDecision α → GateDecision α} {R : Random.Generator → Random.Generator → Prop}
  {S : σ → τ → Prop}

/-- Two configurations make the same steps while their random numbers correspond, up to the reading
of the gate's decision. -/
structure RunConfig.Alike [Scalar α] (f : GateDecision α → GateDecision α)
    (R : Random.Generator → Random.Generator → Prop) (c d : RunConfig α) : Prop where
  disk : d.disk = c.disk
  solar : d.radiation.solar = c.radiation.solar
  numerics : d.numerics = c.numerics
  evaluate : ∀ selector state, d.evaluate selector state = c.evaluate selector state
  supply : ∀ t dt {g h}, R g h →
    (d.supply.sampleMass t dt h).1 = (c.supply.sampleMass t dt g).1 ∧
      R (c.supply.sampleMass t dt g).2 (d.supply.sampleMass t dt h).2
  advance : ∀ {selector state e}, c.evaluate selector state = .ok e →
    ∀ step dt horizon delivered ledger,
      e.advance d step dt horizon delivered state ledger =
        (e.advance c step dt horizon delivered state ledger).map (Committed.mapGate f)

/-- Two runs agree in everything but their configurations, which are alike, their random numbers and
their sinks, which correspond. -/
structure Integrator.Twin [Scalar α] (f : GateDecision α → GateDecision α)
    (R : Random.Generator → Random.Generator → Prop) (S : σ → τ → Prop)
    (i : Integrator α σ) (j : Integrator α τ) : Prop where
  config : i.config.Alike f R j.config
  random : R i.random j.random
  sink : S i.sink j.sink
  selector : j.selector = i.selector
  state : j.state = i.state
  ledger : j.ledger = i.ledger
  horizon : j.horizon = i.horizon
  plan : j.plan = i.plan
  lifecycle : j.lifecycle = i.lifecycle
  steps : j.steps = i.steps

/-- Twins were given the same answer and announced the same. -/
structure Progress.Twin [Scalar α] (f : GateDecision α → GateDecision α)
    (R : Random.Generator → Random.Generator → Prop) (S : σ → τ → Prop)
    (p : Progress α σ ρ) (q : Progress α τ ρ) : Prop where
  after : p.after.Twin f R S q.after
  result : q.result = p.result
  events : q.events = p.events

/-- Twins were driven through the same session. -/
structure Session.Twin [Scalar α] (f : GateDecision α → GateDecision α)
    (R : Random.Generator → Random.Generator → Prop) (S : σ → τ → Prop)
    (p : Session α σ) (q : Session α τ) : Prop where
  after : p.after.Twin f R S q.after
  trace : q.trace = p.trace.map (Committed.mapGate f)
  answered : q.answered = p.answered

namespace Integrator
variable [Scalar α] {i : Integrator α σ} {j : Integrator α τ}

/-! ## The inputs of a step -/

/-- Twins fail alike to gather their inputs. -/
theorem Twin.inputs_error (twin : i.Twin f R S j) {e : StepError α}
    (gathered : i.inputs = .error e) : j.inputs = .error e := by
  simp only [Integrator.inputs, twin.config.evaluate, twin.selector, twin.state, bind_eq_error_iff,
    pure, Except.pure, reduceCtorEq, and_false, exists_false, or_false] at gathered ⊢
  exact gathered

/-- Twins gather the same inputs, each with its own random numbers. -/
theorem Twin.inputs_ok (twin : i.Twin f R S j) {s : StepInputs α} (gathered : i.inputs = .ok s) :
    ∃ g, R s.random g ∧ j.inputs = .ok { s with random := g } := by
  have planned (timescales : TimescaleSet α) : j.planned timescales = i.planned timescales := by
    simp only [Integrator.planned, twin.plan, twin.horizon, twin.config.numerics]
  simp only [Integrator.inputs, bind_eq_ok_iff, pure, Except.pure, Except.ok.injEq] at gathered ⊢
  obtain ⟨e, evaluated, rfl⟩ := gathered
  obtain ⟨delivered, random⟩ := twin.config.supply i.state.time
    ((i.planned e.timescales).1.next i.state.time).1 twin.random
  refine ⟨_, random, e, by rw [twin.config.evaluate, twin.selector, twin.state, evaluated], ?_⟩
  simp only [planned, twin.state, delivered]

/-- Twins that have their inputs are twins. -/
theorem Twin.started (twin : i.Twin f R S j) {s : StepInputs α} {g : Random.Generator}
    (random : R s.random g) : (i.started s).Twin f R S (j.started { s with random := g }) :=
  { twin with random, plan := rfl }

/-- Twins advance alike, up to the reading of the gate's decision. -/
theorem Twin.advance (twin : i.Twin f R S j) {s : StepInputs α} (gathered : i.inputs = .ok s)
    (g : Random.Generator) :
    j.advance { s with random := g } = (i.advance s).map (Committed.mapGate f) := by
  simp only [Integrator.inputs, bind_eq_ok_iff, pure, Except.pure, Except.ok.injEq] at gathered
  obtain ⟨e, evaluated, rfl⟩ := gathered
  simp only [Integrator.advance, twin.state, twin.ledger, twin.steps]
  exact twin.config.advance evaluated _ _ _ _ _

/-- Twins that have committed the same step are twins. -/
theorem Twin.commit (twin : i.Twin f R S j) (r : Committed α) :
    (i.commit r).Twin f R S (j.commit (r.mapGate f)) :=
  { twin with state := rfl, ledger := rfl, steps := congrArg (· + 1) twin.steps }

/-- Twins commit the same step next, up to the reading of the gate's decision. -/
theorem Twin.committed? (twin : i.Twin f R S j) :
    j.committed? = i.committed?.map (Committed.mapGate f) := by
  by_cases live : i.lifecycle.IsLive
  · have live' : j.lifecycle.IsLive := by rwa [twin.lifecycle]
    rw [committed?_of_live live, committed?_of_live live']
    cases gathered : i.inputs with
    | error e =>
      rw [twin.inputs_error gathered]
      rfl
    | ok s =>
      obtain ⟨g, _, inputs⟩ := twin.inputs_ok gathered
      simp only [inputs, Except.toOption, Option.bind_some, twin.advance gathered]
      cases i.advance s <;> rfl
  · have dead : ¬ j.lifecycle.IsLive := by rwa [twin.lifecycle]
    rw [committed?_of_not_live live, committed?_of_not_live dead]
    rfl

/-- Twins whose sinks have changed alike are twins. -/
theorem Twin.withSink (twin : i.Twin f R S j) {s : σ} {t : τ} (sink : S s t) :
    ({ i with sink := s } : Integrator α σ).Twin f R S { j with sink := t } :=
  { twin with sink }

/-- Twins at the same stage are twins. -/
theorem Twin.withStage (twin : i.Twin f R S j) (lifecycle : Lifecycle) :
    ({ i with lifecycle } : Integrator α σ).Twin f R S { j with lifecycle } :=
  { twin with lifecycle := rfl }

theorem Twin.committed?_toList (twin : i.Twin f R S j) :
    j.committed?.toList = i.committed?.toList.map (Committed.mapGate f) := by
  rw [twin.committed?]
  cases i.committed? <;> rfl

theorem Twin.summary (twin : i.Twin f R S j) (reason : TerminationReason) :
    j.summary reason = i.summary reason := by
  simp only [Integrator.summary, twin.steps, twin.state, twin.ledger]

/-! ## One call -/

variable [DiagnosticsSink α σ] [DiagnosticsSink α τ]

theorem Twin.terminate (alike : SinksAlike f S) (twin : i.Twin f R S j)
    (reason : TerminationReason) : (i.terminate reason).Twin f R S (j.terminate reason) := by
  obtain ⟨answer, sink⟩ := alike.finish twin.sink
  simp only [Integrator.terminate, twin.ledger]
  cases i.ledger.check with
  | error e => exact ⟨twin, rfl, rfl⟩
  | ok checked =>
    have after : ({ i with ledger := checked.2, sink := (finish i.sink).1 } :
        Integrator α σ).Twin f R S { j with ledger := checked.2, sink := (finish j.sink).1 } :=
      { twin with ledger := rfl, sink }
    simp only [answer]
    cases (finish i.sink).2 with
    | error e => exact ⟨after, rfl, rfl⟩
    | ok _ => exact ⟨after, rfl, by simp only [twin.steps, twin.state]⟩

theorem Twin.handOver (alike : SinksAlike f S) (twin : i.Twin f R S j) (p : StepPlan α)
    (lands : Bool) (r : StepRecord α) :
    (i.handOver p lands r).Twin f R S (j.handOver p lands (r.mapGate f)) := by
  obtain ⟨answer, sink⟩ := alike.emit twin.sink r
  have sent := twin.withSink sink
  have ending : ({ j with sink := (emit j.sink (r.mapGate f)).1 } : Integrator α τ).ending? p lands
      = ({ i with sink := (emit i.sink r).1 } : Integrator α σ).ending? p lands := by
    simp only [ending?, twin.state, twin.config.numerics, twin.ledger, twin.steps]
  simp only [Integrator.handOver, answer, ending]
  cases (emit i.sink r).2 with
  | error e => exact ⟨sent, rfl, rfl⟩
  | ok _ =>
    cases ({ i with sink := (emit i.sink r).1 } : Integrator α σ).ending? p lands with
    | none => exact ⟨sent, rfl, rfl⟩
    | some reason => exact sent.terminate alike reason

theorem Twin.attempt (alike : SinksAlike f S) (twin : i.Twin f R S j) :
    i.attempt.Twin f R S j.attempt := by
  rw [attempt_eq, attempt_eq]
  cases gathered : i.inputs with
  | error e =>
    rw [twin.inputs_error gathered]
    exact ⟨twin, rfl, rfl⟩
  | ok s =>
    obtain ⟨g, random, inputs⟩ := twin.inputs_ok gathered
    have started := twin.started random
    simp only [inputs, twin.advance gathered]
    cases i.advance s with
    | error o => exact ⟨started, rfl, rfl⟩
    | ok r =>
      have rest := (started.commit r).handOver alike s.plan s.lands r.record
      refine ⟨rest.after, rest.result, ?_⟩
      simp only [Except.map, twin.state]
      exact congrArg _ rest.events

theorem Twin.fail (alike : SinksAlike f S) (twin : i.Twin f R S j) (step : Nat) (e : StepError α) :
    (i.fail step e).Twin f R S (j.fail step e) := by
  obtain ⟨answer, sink⟩ := alike.finish twin.sink
  exact ⟨(twin.withSink sink).withStage _, rfl, by simp only [Integrator.fail, answer]⟩

/-- A call to one twin is answered like a call to the other, and leaves twins. -/
theorem Twin.stepOnce (alike : SinksAlike f S) (twin : i.Twin f R S j) :
    i.stepOnce.Twin f R S j.stepOnce := by
  have tried := twin.attempt alike
  by_cases live : i.lifecycle.IsLive
  · have live' : j.lifecycle.IsLive := by rwa [twin.lifecycle]
    rw [stepOnce_of_live live, stepOnce_of_live live', tried.result]
    split
    · exact ⟨tried.after.withStage _, rfl, tried.events⟩
    · exact ⟨tried.after.withStage _, rfl, tried.events⟩
    · exact ⟨tried.after, rfl, tried.events⟩
    · rename_i e _
      have failed := tried.after.fail alike i.steps e
      simp only [twin.steps]
      exact ⟨failed.after, failed.result, by rw [tried.events, failed.events]⟩
  · cases stage : i.lifecycle with
    | initializing => simp [stage] at live
    | stepping => simp [stage] at live
    | terminating reason =>
      simpa [Integrator.stepOnce, twin.lifecycle, stage] using ⟨twin, rfl, rfl⟩
    | failed step =>
      simpa [Integrator.stepOnce, twin.lifecycle, stage] using ⟨twin, rfl, rfl⟩

/-! ## Whole runs -/

/-- What one twin makes of a call, the other makes of it too. -/
theorem Twin.stepOnce_eq (alike : SinksAlike f S) (twin : i.Twin f R S j)
    {after : Integrator α σ} {answer : StepResult α} {events : List (Event α)}
    (made : i.stepOnce = { after, result := answer, events }) :
    ∃ after', after.Twin f R S after' ∧
      j.stepOnce = { after := after', result := answer, events } := by
  obtain ⟨next, result, announced⟩ := twin.stepOnce alike
  simp only [made] at next result announced
  exact ⟨_, next, by rw [← result, ← announced]⟩

theorem Twin.loop (alike : SinksAlike f S) (twin : i.Twin f R S j) :
    i.loop.Twin f R S j.loop := by
  induction i using loop.induct generalizing j with
  | case1 i after events made ih =>
    obtain ⟨after', next, made'⟩ := twin.stepOnce_eq alike made
    obtain ⟨last, result, announced⟩ := ih next
    rw [Integrator.loop, Integrator.loop, made, made']
    exact ⟨last, result, by simp only [announced]⟩
  | case2 i after reason events made =>
    obtain ⟨after', next, made'⟩ := twin.stepOnce_eq alike made
    rw [Integrator.loop, Integrator.loop, made, made']
    exact ⟨next, by simp only [next.summary], rfl⟩
  | case3 i after e events made =>
    obtain ⟨after', next, made'⟩ := twin.stepOnce_eq alike made
    rw [Integrator.loop, Integrator.loop, made, made']
    exact ⟨next, rfl, rfl⟩
  | case4 i after events made =>
    obtain ⟨after', next, made'⟩ := twin.stepOnce_eq alike made
    rw [Integrator.loop, Integrator.loop, made, made']
    exact ⟨next, rfl, rfl⟩

/-- A request for a whole run to one twin is answered like one to the other, and leaves twins. -/
theorem Twin.run (alike : SinksAlike f S) (twin : i.Twin f R S j) :
    i.run.Twin f R S j.run := by
  obtain ⟨last, result, announced⟩ := twin.loop alike
  have opening : j.opening = i.opening := by
    have radius : j.config.disk.radius = i.config.disk.radius := by rw [twin.config.disk]
    simp only [Integrator.opening, radius, twin.config.solar, twin.ledger, twin.state, twin.horizon]
  exact ⟨last, result, by simp only [Integrator.run, opening, announced]⟩

/-- Twins commit the same steps in a whole run. -/
theorem Twin.loopCommits (alike : SinksAlike f S) (twin : i.Twin f R S j) :
    j.loopCommits = i.loopCommits.map (Committed.mapGate f) := by
  induction i using loop.induct generalizing j with
  | case1 i after events made ih =>
    obtain ⟨after', next, made'⟩ := twin.stepOnce_eq alike made
    rw [Integrator.loopCommits, Integrator.loopCommits, made, made']
    simp only [twin.committed?_toList, ih next, List.map_append]
  | case2 i after reason events made =>
    obtain ⟨after', next, made'⟩ := twin.stepOnce_eq alike made
    rw [Integrator.loopCommits, Integrator.loopCommits, made, made']
    exact twin.committed?_toList
  | case3 i after e events made =>
    obtain ⟨after', next, made'⟩ := twin.stepOnce_eq alike made
    rw [Integrator.loopCommits, Integrator.loopCommits, made, made']
    exact twin.committed?_toList
  | case4 i after events made =>
    obtain ⟨after', next, made'⟩ := twin.stepOnce_eq alike made
    rw [Integrator.loopCommits, Integrator.loopCommits, made, made']
    exact twin.committed?_toList

theorem Twin.answer (alike : SinksAlike f S) (twin : i.Twin f R S j) (demand : Demand) :
    (i.answer demand).Twin f R S (j.answer demand) := by
  cases demand with
  | step =>
    obtain ⟨next, result, _⟩ := twin.stepOnce alike
    exact ⟨next, twin.committed?_toList, congrArg StepResult.isAnswer result⟩
  | run =>
    obtain ⟨last, result, _⟩ := twin.run alike
    exact ⟨last, twin.loopCommits alike, congrArg RunResult.isAnswer result⟩

/-- Twins go through the same session: they stay twins, and commit the same steps up to the reading
of the gate's decision. -/
theorem Twin.session (alike : SinksAlike f S) (twin : i.Twin f R S j) (demands : List Demand) :
    (i.session demands).Twin f R S (j.session demands) := by
  induction demands generalizing i j with
  | nil => exact ⟨twin, rfl, rfl⟩
  | cons demand rest ih =>
    have first := twin.answer alike demand
    rw [Integrator.session, Integrator.session, first.answered]
    split
    · have later := ih first.after
      exact ⟨later.after, by simp only [first.trace, later.trace, List.map_append], later.answered⟩
    · exact first

/-! ## Starting twins -/

/-- Alike configurations with the same preparation are accepted alike, and start twins. -/
theorem twin_new {c d : RunConfig α} (config : c.Alike f R d) (prepare : d.prepare = c.prepare)
    (random : R (.ofSeed c.seed) (.ofSeed d.seed)) {s : σ} {t : τ} (sink : S s t)
    {i : Integrator α σ} (accepted : Integrator.new c s = .ok i) :
    ∃ j, Integrator.new d t = .ok j ∧ i.Twin f R S j := by
  obtain ⟨p, prepared, rfl⟩ := new_eq_ok accepted
  refine ⟨_, new_of_prepare (prepare.trans prepared) t, ?_⟩
  exact { config, random, sink, selector := rfl, state := rfl, ledger := rfl, horizon := rfl
          plan := rfl, lifecycle := rfl, steps := rfl }

/-- Configurations with the same preparation are rejected alike. -/
theorem new_eq_error (alike : SinksAlike f S) {c d : RunConfig α} (prepare : d.prepare = c.prepare)
    {s : σ} {t : τ} (sink : S s t) {e : ConfigError α} {s' : σ} {events : List (Event α)}
    (rejected : Integrator.new c s = .error (e, s', events)) :
    ∃ t', S s' t' ∧ Integrator.new d t = .error (e, t', events) := by
  obtain ⟨answer, finished⟩ := alike.finish sink
  simp only [Integrator.new, prepare] at rejected ⊢
  cases prepared : c.prepare with
  | error cause =>
    rw [prepared] at rejected
    cases rejected
    exact ⟨_, finished, by rw [answer]⟩
  | ok p =>
    rw [prepared] at rejected
    cases rejected

end Integrator
end DebrisDisk
