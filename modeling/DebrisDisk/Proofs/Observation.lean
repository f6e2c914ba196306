import DebrisDisk.Proofs.Course

/-!
# What a sink is told

`Observed` puts an observer in front of a sink: it passes every call on and writes it down with its
answer. A run cannot tell the difference (`Integrator.afterRequests_observed`), so what the observer
has written down is what any sink is told.

The calls of a run follow one pattern. Records are handed over and taken while the run is live, and
what comes after them depends on how the run ended; `Closing` lists the possible ends.
`Integrator.IsTold` is the pattern as an invariant of runs, and the records carry the numbers of the
committed steps in order.

## Main results

* `Integrator.stepOnce_mapSink`, `Integrator.loop_mapSink`: sinks that answer alike are told alike.
* `Integrator.afterRequests_observed`: an observer changes nothing.
* `Integrator.isTold_afterRequests`: the pattern holds after every sequence of requests.
* `Integrator.stepOnce_commits`: a call commits nothing, or one step whose record it hands over.
* `Integrator.records_stepOnce`: a call hands over at most one record, which describes the state
  that it committed.
-/

namespace DebrisDisk
open Scalar DiagnosticsSink
variable {α σ τ ρ : Type}

/-! ## Sinks that answer alike -/

/-- The run with another sink. -/
def Integrator.mapSink (f : σ → τ) (i : Integrator α σ) : Integrator α τ where
  config := i.config
  selector := i.selector
  state := i.state
  ledger := i.ledger
  random := i.random
  sink := f i.sink
  horizon := i.horizon
  plan := i.plan
  lifecycle := i.lifecycle
  steps := i.steps

/-- The answer with another sink. -/
def Progress.mapSink (f : σ → τ) (p : Progress α σ ρ) : Progress α τ ρ where
  after := p.after.mapSink f
  result := p.result
  events := p.events

/-- Two sinks answer alike, and alike afterwards. -/
structure AnswersAlike [DiagnosticsSink α σ] [DiagnosticsSink α τ] (f : σ → τ) : Prop where
  emit : ∀ s r, emit (f s) r = (f (emit s r).1, (emit s r).2)
  finish : ∀ s, finish (f s) = (f (finish s).1, (finish s).2)

namespace Integrator
variable [Scalar α] [DiagnosticsSink α σ] [DiagnosticsSink α τ] {f : σ → τ}

theorem terminate_mapSink (alike : AnswersAlike f) (i : Integrator α σ)
    (reason : TerminationReason) :
    (i.mapSink f).terminate reason = (i.terminate reason).mapSink f := by
  simp only [terminate, mapSink, alike.finish]
  cases i.ledger.check with
  | error e => rfl
  | ok checked =>
    simp only
    cases (DiagnosticsSink.finish i.sink).2 <;> rfl

theorem handOver_mapSink (alike : AnswersAlike f) (i : Integrator α σ) (p : StepPlan α)
    (lands : Bool) (record : StepRecord α) :
    (i.mapSink f).handOver p lands record = (i.handOver p lands record).mapSink f := by
  have sent : emit (i.mapSink f).sink record
      = (f (emit i.sink record).1, (emit i.sink record).2) := alike.emit i.sink record
  simp only [handOver, sent]
  cases (emit i.sink record).2 with
  | error e => rfl
  | ok _ =>
    have same :
        ({ i.mapSink f with sink := f (emit i.sink record).1 } : Integrator α τ).ending? p lands
          = ({ i with sink := (emit i.sink record).1 } : Integrator α σ).ending? p lands := rfl
    simp only [same]
    cases ({ i with sink := (emit i.sink record).1 } : Integrator α σ).ending? p lands with
    | none => rfl
    | some reason =>
      exact terminate_mapSink alike { i with sink := (emit i.sink record).1 } reason

theorem attempt_mapSink (alike : AnswersAlike f) (i : Integrator α σ) :
    (i.mapSink f).attempt = i.attempt.mapSink f := by
  have gathered : (i.mapSink f).inputs = i.inputs := rfl
  rw [attempt_eq, attempt_eq, gathered]
  cases i.inputs with
  | error e => rfl
  | ok s =>
    have advanced : (i.mapSink f).advance s = i.advance s := rfl
    simp only [advanced]
    cases i.advance s with
    | error o => rfl
    | ok r =>
      have handed := handOver_mapSink alike ((i.started s).commit r) s.plan s.lands r.record
      have moved : (((i.mapSink f).started s).commit r) = ((i.started s).commit r).mapSink f := rfl
      simp only [moved, handed]
      rfl

/-- Sinks that answer alike are told alike by one call. -/
theorem stepOnce_mapSink (alike : AnswersAlike f) (i : Integrator α σ) :
    (i.mapSink f).stepOnce = i.stepOnce.mapSink f := by
  by_cases live : i.lifecycle.IsLive
  · rw [stepOnce_of_live live, stepOnce_of_live (i := i.mapSink f) live, attempt_mapSink alike]
    have failed (after : Integrator α σ) (e : StepError α) :
        (after.mapSink f).fail i.steps e = (after.fail i.steps e).mapSink f := by
      simp only [fail, mapSink, alike.finish]
      rfl
    cases answer : i.attempt.result with
    | error o =>
      cases o with
      | refused => simp [Progress.mapSink, answer, mapSink]
      | failed e =>
        have steps : (i.mapSink f).steps = i.steps := rfl
        simp only [Progress.mapSink, answer, steps, failed]
    | ok ending =>
      cases ending with
      | none => simp [Progress.mapSink, answer, mapSink]
      | some reason => simp [Progress.mapSink, answer, mapSink]
  · cases stage : i.lifecycle with
    | initializing => simp [stage] at live
    | stepping => simp [stage] at live
    | terminating reason =>
      have stage' : (i.mapSink f).lifecycle = .terminating reason := stage
      simp [stepOnce, stage, stage', Progress.mapSink]
    | failed step =>
      have stage' : (i.mapSink f).lifecycle = .failed step := stage
      simp [stepOnce, stage, stage', Progress.mapSink]

/-- Sinks that answer alike are told alike by a whole run. -/
theorem loop_mapSink (alike : AnswersAlike f) (i : Integrator α σ) :
    (i.mapSink f).loop = i.loop.mapSink f := by
  induction i using loop.induct with
  | case1 i after events made ih =>
    rw [loop, loop, stepOnce_mapSink alike, made]
    simp only [Progress.mapSink, ih]
  | case2 i after reason events made =>
    rw [loop, loop, stepOnce_mapSink alike, made]
    rfl
  | case3 i after e events made =>
    rw [loop, loop, stepOnce_mapSink alike, made]
    rfl
  | case4 i after events made =>
    rw [loop, loop, stepOnce_mapSink alike, made]
    rfl

end Integrator

/-! ## Observers -/

/-- A call to a sink with its answer. -/
inductive SinkCall (α : Type) where
  | emitted (record : StepRecord α) (answer : Except SinkError Unit)
  | finished (answer : Except SinkError Unit)

namespace SinkCall

/-- A record was handed over and taken. -/
def accepted (record : StepRecord α) : SinkCall α := .emitted record (.ok ())

/-- The record that was handed over. -/
def record? : SinkCall α → Option (StepRecord α)
  | emitted record _ => some record
  | finished _ => none

/-- The records were ended. -/
def isFinish : SinkCall α → Bool
  | emitted _ _ => false
  | finished _ => true

end SinkCall

/-- A sink and the calls that were made to it, in order. -/
structure Observed (α σ : Type) where
  sink : σ
  calls : List (SinkCall α)

namespace Observed

/-- A sink to which no call was made. -/
def of (sink : σ) : Observed α σ := { sink, calls := [] }

/-- The records that were handed over. -/
def records (o : Observed α σ) : List (StepRecord α) := o.calls.filterMap SinkCall.record?

/-- How often the records were ended. -/
def finishes (o : Observed α σ) : Nat := o.calls.countP SinkCall.isFinish

/-- Something happens to the sink behind the observer. -/
def change (f : σ → σ) (o : Observed α σ) : Observed α σ := { o with sink := f o.sink }

variable [DiagnosticsSink α σ]

/-- Passes a record on and writes the call down. -/
def emit (o : Observed α σ) (r : StepRecord α) : Observed α σ × Except SinkError Unit :=
  let (sink, answer) := DiagnosticsSink.emit o.sink r
  ({ sink, calls := o.calls ++ [.emitted r answer] }, answer)

/-- Ends the records and writes the call down. -/
def finish (o : Observed α σ) : Observed α σ × Except SinkError Unit :=
  let (sink, answer) := DiagnosticsSink.finish o.sink
  ({ sink, calls := o.calls ++ [.finished answer] }, answer)

instance : DiagnosticsSink α (Observed α σ) := ⟨emit, finish⟩

variable (o : Observed α σ) (r : StepRecord α)

@[simp] theorem calls_emit : (DiagnosticsSink.emit o r).1.calls =
    o.calls ++ [.emitted r (DiagnosticsSink.emit o r).2] := rfl

@[simp] theorem calls_finish : (DiagnosticsSink.finish o).1.calls =
    o.calls ++ [.finished (DiagnosticsSink.finish o).2] := rfl

@[simp] theorem records_emit : (DiagnosticsSink.emit o r).1.records = o.records ++ [r] := by
  simp [records, SinkCall.record?]

@[simp] theorem records_finish : (DiagnosticsSink.finish o).1.records = o.records := by
  simp [records, SinkCall.record?]

/-- A sink answers as it does without an observer. -/
theorem answersAlike : AnswersAlike (Observed.sink : Observed α σ → σ) where
  emit _ _ := rfl
  finish _ := rfl

end Observed

/-- A request made of a run whose sink is observed. -/
def Request.observed : Request σ → Request (Observed α σ)
  | .step => .step
  | .run => .run
  | .meanwhile change => .meanwhile (Observed.change change)

namespace Integrator
variable [Scalar α] [DiagnosticsSink α σ]

/-- The run with an observer in front of its sink. -/
def observed (i : Integrator α σ) : Integrator α (Observed α σ) := i.mapSink .of

omit [DiagnosticsSink α σ] in
/-- An observed run is one of the same preparation. -/
theorem IsRunOf.observed {i : Integrator α σ} {c : RunConfig α} {p : Preparation α}
    (h : i.IsRunOf c p) : i.observed.IsRunOf c p where
  prepared := h.prepared
  config := h.config
  selector := h.selector
  horizon := h.horizon
  initial := h.initial
  tolerance := h.tolerance
  totals := h.totals
  plan := h.plan

/-- An observer changes nothing. -/
theorem afterRequests_observed (i : Integrator α (Observed α σ)) (requests : List (Request σ)) :
    (i.afterRequests (requests.map Request.observed)).mapSink Observed.sink =
      (i.mapSink Observed.sink).afterRequests requests := by
  induction requests generalizing i with
  | nil => rfl
  | cons request rest ih =>
    have served : (i.serve request.observed).mapSink Observed.sink
        = (i.mapSink Observed.sink).serve request := by
      cases request with
      | step => rw [serve, stepOnce_mapSink Observed.answersAlike]; rfl
      | run => rw [serve, run_after, loop_mapSink Observed.answersAlike]; rfl
      | meanwhile change => rfl
    calc
      (i.afterRequests ((request :: rest).map Request.observed)).mapSink Observed.sink
          = ((i.serve request.observed).afterRequests
              (rest.map Request.observed)).mapSink Observed.sink := rfl
      _ = ((i.serve request.observed).mapSink Observed.sink).afterRequests rest := ih _
      _ = (i.mapSink Observed.sink).afterRequests (request :: rest) := by
        rw [served]
        rfl

end Integrator

/-! ## The pattern of the calls -/

/-- The calls that follow the records which a sink has taken, by the stage of the run and the number
of committed steps. -/
inductive Closing (steps : Nat) : Lifecycle → List (SinkCall α) → Prop where
  | live {stage : Lifecycle} (live : stage.IsLive) : Closing steps stage []
  | ended (reason : TerminationReason) : Closing steps (.terminating reason) [.finished (.ok ())]
  | failed (answer : Except SinkError Unit) : Closing steps (.failed steps) [.finished answer]
  /-- The sink refused the last record. -/
  | unsent {step : Nat} (counted : steps = step + 1) (record : StepRecord α) (cause : SinkError)
      (answer : Except SinkError Unit) :
      Closing steps (.failed step) [.emitted record (.error cause), .finished answer]
  /-- The run would have ended, but the sink refused to be finished, and was asked again. -/
  | unfinished {step : Nat} (counted : steps = step + 1) (cause : SinkError)
      (answer : Except SinkError Unit) :
      Closing steps (.failed step) [.finished (.error cause), .finished answer]

/-- A record describes the last step that was committed. -/
structure StepRecord.Describes [Scalar α] (r : StepRecord α) (i : Integrator α σ) : Prop where
  step : r.step + 1 = i.steps
  time : r.time = i.state.time.seconds
  mass : r.disk.mass = i.state.totalMass.kilograms
  floor : r.disk.floor = i.state.floor.metres

namespace Integrator
variable [Scalar α]

/-- The record of a step describes what its commit leaves. -/
theorem describes_of_advance {i : Integrator α σ} {s : StepInputs α} {r : Committed α}
    (passed : i.advance s = .ok r) (sink : σ) (lifecycle : Lifecycle) :
    r.record.Describes { (i.started s).commit r with sink, lifecycle } := by
  obtain ⟨bins, flows, error, _, _, state, record⟩ := Evaluation.advance_eq_ok passed
  rw [record]
  exact { step := rfl, time := rfl, mass := rfl, floor := by simp [state]; rfl }

/-- The records carry the numbers of the committed steps, the sink has taken all but what is left to
the closing calls, and these follow from how the run ended. -/
structure IsTold (i : Integrator α (Observed α σ)) : Prop where
  numbered : i.sink.records.map (·.step) = List.range i.steps
  closing : ∃ (taken : List (StepRecord α)) (rest : List (SinkCall α)),
    i.sink.calls = taken.map .accepted ++ rest ∧ Closing i.steps i.lifecycle rest

namespace IsTold
variable {i : Integrator α (Observed α σ)}

omit [Scalar α] in
/-- A live run has handed over records that were all taken. -/
theorem calls_of_live (told : i.IsTold) (live : i.lifecycle.IsLive) :
    ∃ taken : List (StepRecord α), i.sink.calls = taken.map .accepted := by
  obtain ⟨taken, rest, calls, closing⟩ := told.closing
  generalize i.lifecycle = stage at live closing
  cases closing with
  | live _ => exact ⟨taken, by simpa using calls⟩
  | ended reason => simp at live
  | failed answer => simp at live
  | unsent counted record cause answer => simp at live
  | unfinished counted cause answer => simp at live

variable [DiagnosticsSink α σ]

/-- One call keeps the pattern. -/
theorem stepOnce (told : i.IsTold) : i.stepOnce.after.IsTold := by
  by_cases live : i.lifecycle.IsLive
  · obtain ⟨taken, calls⟩ := told.calls_of_live live
    have numbered := told.numbered
    -- A step that passed hands over the next number.
    have next {s : StepInputs α} {r : Committed α} (passed : i.advance s = .ok r) :
        (i.sink.records ++ [r.record]).map (·.step) = List.range (i.steps + 1) := by
      have step : r.record.step = i.steps := by
        simpa using (describes_of_advance passed i.sink i.lifecycle).step
      simp [numbered, step, List.range_succ]
    have course := stepOnce_course live
    generalize i.stepOnce.after = after, i.stepOnce.result = answer at course
    cases course with
    | unprepared e gathered =>
      exact { numbered := by simpa using numbered
              closing := ⟨taken, [.finished (finish i.sink).2], by simp [calls], .failed _⟩ }
    | refused s gathered stuck =>
      exact { numbered := by simpa using numbered
              closing := ⟨taken, [], by simp [calls], .live live⟩ }
    | violated s e gathered stuck =>
      exact { numbered := by simpa using numbered
              closing := ⟨taken, [.finished (finish i.sink).2], by simp [calls], .failed _⟩ }
    | unsent s r gathered passed cause sent =>
      exact { numbered := by simpa using next passed
              closing := ⟨taken,
                [.emitted r.record (.error cause), .finished (finish (emit i.sink r.record).1).2],
                by simp [calls, sent], .unsent rfl r.record cause _⟩ }
    | onward s r gathered passed sent ending =>
      exact { numbered := by simpa using next passed
              closing := ⟨taken ++ [r.record], [], by simp [calls, sent, SinkCall.accepted],
                .live (.inr rfl)⟩ }
    | unfinished s r gathered passed sent reason ending cause finished =>
      exact { numbered := by simpa using next passed
              closing := ⟨taken ++ [r.record], [.finished (.error cause),
                  .finished (finish (finish (emit i.sink r.record).1).1).2],
                by simp [calls, sent, finished, SinkCall.accepted], .unfinished rfl cause _⟩ }
    | ended s r gathered passed sent reason ending finished =>
      exact { numbered := by simpa using next passed
              closing := ⟨taken ++ [r.record], [.finished (.ok ())],
                by simp [calls, sent, finished, SinkCall.accepted], .ended reason⟩ }
  · rw [(stepOnce_of_not_live live).1]
    exact told

end IsTold

variable [DiagnosticsSink α σ]

/-- What every call preserves, and whatever may happen to the sink behind its observer, holds after
every sequence of requests. -/
theorem afterObserved_induction {P : Integrator α (Observed α σ) → Prop}
    {i : Integrator α (Observed α σ)} {requests : List (Request σ)} (start : P i)
    (call : ∀ j, P j → P j.stepOnce.after)
    (meanwhile : ∀ j f, .meanwhile f ∈ requests → P j → P { j with sink := j.sink.change f }) :
    P (i.afterRequests (requests.map Request.observed)) := by
  refine afterRequests_induction start call fun j change h => ?_
  obtain ⟨request, member, same⟩ := List.mem_map.mp h
  cases request with
  | step => cases same
  | run => cases same
  | meanwhile f =>
    obtain rfl : Observed.change f = change := by simpa [Request.observed] using same
    exact meanwhile j f member

/-- The calls of every accepted run follow the pattern. -/
theorem isTold_afterRequests {c : RunConfig α} {sink : σ} {start : Integrator α σ}
    (accepted : Integrator.new c sink = .ok start) (requests : List (Request σ)) :
    (start.observed.afterRequests (requests.map Request.observed)).IsTold := by
  refine afterObserved_induction ?_ (fun _ told => told.stepOnce) fun _ _ _ told => ?_
  · obtain ⟨p, _, rfl⟩ := new_eq_ok accepted
    exact { numbered := rfl, closing := ⟨[], [], rfl, .live (.inl rfl)⟩ }
  · exact { numbered := told.numbered, closing := told.closing }

/-! ## Committed steps -/

/-- The step that the next call commits, if it commits one. -/
def committed? (i : Integrator α σ) : Option (Committed α) :=
  match i.lifecycle with
  | .initializing | .stepping => i.inputs.toOption.bind fun s => (i.advance s).toOption
  | .terminating _ | .failed _ => none

section Committed
variable {i : Integrator α σ}

omit [DiagnosticsSink α σ] in
theorem committed?_of_live (live : i.lifecycle.IsLive) :
    i.committed? = i.inputs.toOption.bind fun s => (i.advance s).toOption := by
  rcases live with stage | stage <;> simp [committed?, stage]

omit [DiagnosticsSink α σ] in
theorem committed?_of_unprepared (live : i.lifecycle.IsLive) {e : StepError α}
    (gathered : i.inputs = .error e) : i.committed? = none := by
  rw [committed?_of_live live, gathered]
  rfl

omit [DiagnosticsSink α σ] in
theorem committed?_of_stuck (live : i.lifecycle.IsLive) {s : StepInputs α} {o : Obstacle α}
    (gathered : i.inputs = .ok s) (stuck : i.advance s = .error o) : i.committed? = none := by
  rw [committed?_of_live live, gathered]
  simp [Except.toOption, stuck]

omit [DiagnosticsSink α σ] in
theorem committed?_of_passed (live : i.lifecycle.IsLive) {s : StepInputs α} {r : Committed α}
    (gathered : i.inputs = .ok s) (passed : i.advance s = .ok r) : i.committed? = some r := by
  rw [committed?_of_live live, gathered]
  simp [Except.toOption, passed]

end Committed

omit [DiagnosticsSink α σ] in
theorem committed?_of_not_live {i : Integrator α σ} (dead : ¬ i.lifecycle.IsLive) :
    i.committed? = none := by
  unfold committed?
  split <;> simp_all

omit [DiagnosticsSink α σ] in
/-- A step is committed next just when a live run has its inputs and the step passes. -/
theorem committed?_eq_some_iff {i : Integrator α σ} {r : Committed α} :
    i.committed? = some r ↔
      i.lifecycle.IsLive ∧ ∃ s, i.inputs = .ok s ∧ i.advance s = .ok r := by
  by_cases live : i.lifecycle.IsLive
  · rw [committed?_of_live live]
    cases i.inputs with
    | error e => simp [live, Except.toOption]
    | ok s => cases advanced : i.advance s <;> simp [live, Except.toOption, advanced]
  · simp [committed?_of_not_live live, live]

/-- No step was committed, and the run was not ended. -/
structure CommitsNothing (i after : Integrator α (Observed α σ)) : Prop where
  state : after.state = i.state
  ledger : after.ledger = i.ledger
  steps : after.steps = i.steps
  records : after.sink.records = i.sink.records
  unended : ∀ reason, after.lifecycle = .terminating reason → i.lifecycle = .terminating reason

omit [Scalar α] [DiagnosticsSink α σ] in
/-- Nothing is committed between two requests. -/
theorem CommitsNothing.change (i : Integrator α (Observed α σ)) (f : σ → σ) :
    i.CommitsNothing { i with sink := i.sink.change f } where
  state := rfl
  ledger := rfl
  steps := rfl
  records := rfl
  unended _ stage := stage

/-- A call commits nothing, or it commits one step and hands over its record. -/
theorem stepOnce_commits (i : Integrator α (Observed α σ)) :
    (i.committed? = none ∧ i.CommitsNothing i.stepOnce.after) ∨
      ∃ s r sink lifecycle, i.committed? = some r ∧ i.inputs = .ok s ∧ i.advance s = .ok r ∧
        sink.records = i.sink.records ++ [r.record] ∧
        i.stepOnce.after = { (i.started s).commit r with sink, lifecycle } := by
  by_cases live : i.lifecycle.IsLive
  · have course := stepOnce_course live
    generalize i.stepOnce.after = after, i.stepOnce.result = answer at course
    cases course with
    | unprepared e gathered =>
      exact .inl ⟨committed?_of_unprepared live gathered, rfl, rfl, rfl, by simp, by simp⟩
    | refused s gathered stuck =>
      exact .inl ⟨committed?_of_stuck live gathered stuck, rfl, rfl, rfl, rfl, fun _ stage => stage⟩
    | violated s e gathered stuck =>
      exact .inl ⟨committed?_of_stuck live gathered stuck, rfl, rfl, rfl, by simp, by simp⟩
    | unsent s r gathered passed cause sent =>
      exact .inr ⟨s, r, _, _, committed?_of_passed live gathered passed, gathered, passed,
        by simp, rfl⟩
    | onward s r gathered passed sent ending =>
      exact .inr ⟨s, r, _, _, committed?_of_passed live gathered passed, gathered, passed,
        by simp, rfl⟩
    | unfinished s r gathered passed sent reason ending cause finished =>
      exact .inr ⟨s, r, _, _, committed?_of_passed live gathered passed, gathered, passed,
        by simp, rfl⟩
    | ended s r gathered passed sent reason ending finished =>
      exact .inr ⟨s, r, _, _, committed?_of_passed live gathered passed, gathered, passed,
        by simp, rfl⟩
  · rw [(stepOnce_of_not_live live).1]
    exact .inl ⟨committed?_of_not_live live, rfl, rfl, rfl, rfl, fun _ stage => stage⟩

/-- A call hands over at most one record, which describes the state that it committed. -/
theorem records_stepOnce (i : Integrator α (Observed α σ)) :
    (i.stepOnce.after.sink.records = i.sink.records ∧ i.stepOnce.after.steps = i.steps ∧
      i.stepOnce.after.state = i.state) ∨
    ∃ r, i.stepOnce.after.sink.records = i.sink.records ++ [r] ∧
      r.Describes i.stepOnce.after := by
  rcases i.stepOnce_commits with ⟨_, kept⟩ | ⟨s, r, sink, lifecycle, _, _, passed, sent, after⟩
  · exact .inl ⟨kept.records, kept.steps, kept.state⟩
  · rw [after]
    exact .inr ⟨r.record, sent, describes_of_advance passed sink lifecycle⟩

end Integrator
end DebrisDisk
