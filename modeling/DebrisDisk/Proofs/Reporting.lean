import DebrisDisk.Proofs.Exact.Enduring
import DebrisDisk.Proofs.Observation

/-!
# How a run reports

Each committed step is handed over once, in order, after it was committed, and nothing is handed
over after a refusal or after the records were ended. So a sink that keeps what it takes as long as
it is open holds just the records that were handed over; `SinkKeeps` is this property of a sink, and
sinks in memory and channels with a reader have it.

The records are ended once when the run ends, with one exception: a sink that refuses to be finished
at the regular end of a run makes the last step fail, and is then finished again as after any failed
step.

## Main results

* `Integrator.emits_each_step_once`: the order of the records, for every sink and all requests.
* `Integrator.finish_calls`: how often the records are ended.
-/

namespace DebrisDisk
open Scalar DiagnosticsSink
variable {α σ : Type}

/-! ## The order of the calls -/

/-- What comes before a record was taken. -/
def SinkCall.Precedes (earlier later : SinkCall α) : Prop :=
  later.record?.isSome = true → ∃ record, earlier = .accepted record

theorem SinkCall.accepted_precedes (record : StepRecord α) (later : SinkCall α) :
    (accepted record).Precedes later :=
  fun _ => ⟨record, rfl⟩

theorem SinkCall.precedes_finished (earlier : SinkCall α) (answer : Except SinkError Unit) :
    earlier.Precedes (.finished answer) := by
  intro handed
  simp [record?] at handed

/-- Nothing is handed over after a refusal or after the records were ended. -/
theorem Closing.pairwise {steps : Nat} {stage : Lifecycle} {rest : List (SinkCall α)}
    (closing : Closing steps stage rest) : rest.Pairwise SinkCall.Precedes := by
  cases closing <;> simp [SinkCall.precedes_finished]

/-- The last step was committed and its record was taken, and yet the step failed: the run would
have ended with it, but the sink refused to be finished. -/
def EndRefused (steps : Nat) (stage : Lifecycle) (calls : List (SinkCall α)) : Prop :=
  ∃ step, stage = .failed step ∧ steps = step + 1 ∧
    ∀ record cause, .emitted record (.error cause) ∉ calls

/-- The records are ended once, and once more when the sink refused the end of the run. -/
theorem Closing.finishes {steps : Nat} {stage : Lifecycle} {rest : List (SinkCall α)}
    (closing : Closing steps stage rest) :
    (stage.IsLive → rest.countP SinkCall.isFinish = 0) ∧
    (EndRefused steps stage rest → rest.countP SinkCall.isFinish = 2) ∧
    (¬ stage.IsLive → ¬ EndRefused steps stage rest → rest.countP SinkCall.isFinish = 1) := by
  cases closing with
  | live live =>
    refine ⟨fun _ => rfl, ?_, fun dead => absurd live dead⟩
    rintro ⟨step, rfl, _⟩
    simp at live
  | ended reason => simp [EndRefused, SinkCall.isFinish]
  | failed answer => simp [EndRefused, SinkCall.isFinish]
  | unsent counted record cause answer => simp [EndRefused, SinkCall.isFinish]
  | unfinished counted cause answer =>
    subst counted
    exact ⟨by simp, fun _ => rfl, by simp [EndRefused]⟩

namespace Integrator.IsTold
variable {i : Integrator α (Observed α σ)}

/-- Whatever comes before a record was taken. -/
theorem pairwise (told : i.IsTold) : i.sink.calls.Pairwise SinkCall.Precedes := by
  obtain ⟨taken, rest, calls, closing⟩ := told.closing
  rw [calls, List.pairwise_append]
  refine ⟨?_, closing.pairwise, ?_⟩
  · rw [List.pairwise_map]
    exact List.pairwise_of_forall fun earlier later => SinkCall.accepted_precedes earlier _
  · intro earlier member later _
    obtain ⟨record, _, rfl⟩ := List.mem_map.mp member
    exact SinkCall.accepted_precedes record later

/-- The records are ended once, and once more when the sink refused the end of the run. -/
theorem finishes (told : i.IsTold) :
    (i.lifecycle.IsLive → i.sink.finishes = 0) ∧
    (EndRefused i.steps i.lifecycle i.sink.calls → i.sink.finishes = 2) ∧
    (¬ i.lifecycle.IsLive → ¬ EndRefused i.steps i.lifecycle i.sink.calls →
      i.sink.finishes = 1) := by
  obtain ⟨taken, rest, calls, closing⟩ := told.closing
  have counted : i.sink.finishes = rest.countP SinkCall.isFinish := by
    have none : (taken.map SinkCall.accepted).countP SinkCall.isFinish = 0 := by
      simp [List.countP_eq_zero, SinkCall.accepted, SinkCall.isFinish]
    rw [Observed.finishes, calls, List.countP_append, none, Nat.zero_add]
  have refused : EndRefused i.steps i.lifecycle i.sink.calls ↔
      EndRefused i.steps i.lifecycle rest := by
    simp [EndRefused, calls, SinkCall.accepted]
  rw [counted, refused]
  exact closing.finishes

end Integrator.IsTold

/-! ## Sinks that keep their records -/

/-- A sink takes every record while it is open and keeps what it has taken. -/
structure SinkKeeps [DiagnosticsSink α σ] (held : σ → List (StepRecord α)) (isOpen : σ → Prop) :
    Prop where
  takes : ∀ s r, isOpen s → (emit s r).2 = .ok ()
  keeps : ∀ s r, isOpen s → held (emit s r).1 = held s ++ [r] ∧ isOpen (emit s r).1
  finished : ∀ s, held (finish s).1 = held s

/-- A sink in memory takes records until it is finished. -/
theorem MemorySink.sinkKeeps :
    SinkKeeps (α := α) MemorySink.records fun s => s.finished = false where
  takes s r isOpen := by simp [DiagnosticsSink.emit, MemorySink.emit, isOpen]
  keeps s r isOpen := by simp [DiagnosticsSink.emit, MemorySink.emit, isOpen]
  finished _ := rfl

/-- A channel and the records that its receiver has taken from it so far. -/
structure Reader (α : Type) where
  channel : Channel α
  taken : List (StepRecord α)

namespace Reader

/-- A receiver at an empty channel. -/
def empty : Reader α := { channel := .empty, taken := [] }

/-- Everything that was sent. -/
def received (r : Reader α) : List (StepRecord α) := r.taken ++ r.channel.waiting

/-- The receiver takes what waits. -/
def take (r : Reader α) : Reader α :=
  { channel := r.channel.receive.1, taken := r.taken ++ r.channel.receive.2 }

/-- Both ends of the channel are open. -/
def IsOpen (r : Reader α) : Prop := r.channel.sending = true ∧ r.channel.connected = true

instance : DiagnosticsSink α (Reader α) where
  emit r record := ({ r with channel := (r.channel.emit record).1 }, (r.channel.emit record).2)
  finish r := ({ r with channel := r.channel.finish.1 }, r.channel.finish.2)

/-- Taking what waits loses nothing. -/
theorem received_take (r : Reader α) : r.take.received = r.received := by
  simp [take, received, Channel.receive]

theorem isOpen_take {r : Reader α} (isOpen : r.IsOpen) : r.take.IsOpen := isOpen

/-- A channel takes records until it is finished. -/
theorem sinkKeeps : SinkKeeps (α := α) received IsOpen where
  takes s r isOpen := by simp [DiagnosticsSink.emit, Channel.emit, isOpen.1, isOpen.2]
  keeps s r isOpen := by
    simp [DiagnosticsSink.emit, Channel.emit, received, IsOpen, isOpen.1, isOpen.2]
  finished _ := rfl

end Reader

namespace Integrator
variable [Scalar α] [DiagnosticsSink α σ]

/-- A sink that keeps its records holds just those that were handed over, whatever happens to it
that neither touches them nor closes it. -/
theorem held_afterRequests {held : σ → List (StepRecord α)} {isOpen : σ → Prop}
    (keeps : SinkKeeps held isOpen) {start : Integrator α σ} {requests : List (Request σ)}
    (none : held start.sink = []) (opened : isOpen start.sink)
    (harmless : ∀ change, .meanwhile change ∈ requests →
      ∀ s, held (change s) = held s ∧ (isOpen s → isOpen (change s))) :
    held (start.afterRequests requests).sink =
      (start.observed.afterRequests (requests.map Request.observed)).sink.records := by
  have kept : let i := start.observed.afterRequests (requests.map Request.observed)
      held i.sink.sink = i.sink.records ∧ (i.lifecycle.IsLive → isOpen i.sink.sink) := by
    refine afterObserved_induction (P := fun i => held i.sink.sink = i.sink.records ∧
      (i.lifecycle.IsLive → isOpen i.sink.sink)) ⟨none, fun _ => opened⟩ (fun j ih => ?_)
      fun j f h ih => ⟨((harmless f h _).1.trans ih.1), fun live => (harmless f h _).2 (ih.2 live)⟩
    by_cases live : j.lifecycle.IsLive
    · have isOpen := ih.2 live
      -- A record that is handed over to an open sink is taken and kept.
      have emitted (r : StepRecord α) := keeps.keeps j.sink.sink r isOpen
      have finished (o : Observed α σ) : held (finish o).1.sink = held o.sink :=
        keeps.finished o.sink
      have sinkOf (r : StepRecord α) : held (emit j.sink r).1.sink = j.sink.records ++ [r] := by
        rw [← ih.1]
        exact (emitted r).1
      have course := stepOnce_course live
      generalize j.stepOnce.after = after, j.stepOnce.result = answer at course
      cases course with
      | unprepared e gathered => exact ⟨by simp [finished, ih.1], by simp⟩
      | refused s gathered stuck => exact ⟨ih.1, ih.2⟩
      | violated s e gathered stuck => exact ⟨by simp [finished, ih.1], by simp⟩
      | unsent s r gathered passed cause sent =>
        have taken : (emit j.sink r.record).2 = .ok () := keeps.takes j.sink.sink r.record isOpen
        simp [taken] at sent
      | onward s r gathered passed sent ending =>
        exact ⟨by simp [sinkOf], fun _ => (emitted r.record).2⟩
      | unfinished s r gathered passed sent reason ending cause failed =>
        exact ⟨by simp [finished, sinkOf], by simp⟩
      | ended s r gathered passed sent reason ending finish =>
        exact ⟨by simp [finished, sinkOf], by simp⟩
    · rw [(stepOnce_of_not_live live).1]
      exact ih
  rw [← kept.1]
  exact congrArg (fun i => held i.sink) (start.observed.afterRequests_observed requests).symm

/-! ## Main results -/

/-- **Each step is reported once.** Take any sequence of requests to an accepted run, with an
observer in front of its sink, which changes nothing. The records that were handed over carry the
numbers of the committed steps in order, whether the sink took them or not, and whatever came before
a record was a record that was taken. A request for a whole run is a number of calls. One more call
hands over nothing and commits nothing, or it hands over one record, which describes the state that
the call has committed. So a sink in memory, and the reader of a channel with both ends open, hold
just the records that were handed over. -/
theorem emits_each_step_once (c : RunConfig α) :
    (∀ (σ : Type) [DiagnosticsSink α σ] (sink : σ) (start : Integrator α σ),
      Integrator.new c sink = .ok start → ∀ requests : List (Request σ),
      let i := start.observed.afterRequests (requests.map Request.observed)
      i.mapSink Observed.sink = start.afterRequests requests ∧
      i.sink.records.map (·.step) = List.range i.steps ∧
      i.sink.calls.Pairwise SinkCall.Precedes ∧
      (∃ n, i.run.after = i.afterCalls n) ∧
      ((i.stepOnce.after.sink.records = i.sink.records ∧ i.stepOnce.after.steps = i.steps ∧
          i.stepOnce.after.state = i.state) ∨
        ∃ r, i.stepOnce.after.sink.records = i.sink.records ++ [r] ∧
          r.Describes i.stepOnce.after)) ∧
    (∀ start : Integrator α (MemorySink α), Integrator.new c .empty = .ok start →
      ∀ requests : List (Request (MemorySink α)), (∀ change, .meanwhile change ∉ requests) →
      (start.afterRequests requests).sink.records =
        (start.observed.afterRequests (requests.map Request.observed)).sink.records) ∧
    ∀ start : Integrator α (Reader α), Integrator.new c .empty = .ok start →
      ∀ requests : List (Request (Reader α)),
      (∀ change, .meanwhile change ∈ requests → change = Reader.take) →
      (start.afterRequests requests).sink.received =
        (start.observed.afterRequests (requests.map Request.observed)).sink.records := by
  refine ⟨fun σ _ sink start accepted requests => ?_, fun start accepted requests calls => ?_,
    fun start accepted requests reads => ?_⟩
  · intro i
    have told := isTold_afterRequests accepted requests
    obtain ⟨n, _, last, _⟩ := i.loop_calls
    exact ⟨start.observed.afterRequests_observed requests, told.numbered, told.pairwise,
      ⟨n + 1, last⟩, i.records_stepOnce⟩
  · obtain ⟨p, _, rfl⟩ := new_eq_ok accepted
    exact held_afterRequests MemorySink.sinkKeeps rfl rfl
      fun change asked => absurd asked (calls change)
  · obtain ⟨p, _, rfl⟩ := new_eq_ok accepted
    refine held_afterRequests Reader.sinkKeeps rfl ⟨rfl, rfl⟩ fun change asked r => ?_
    rw [reads change asked]
    exact ⟨r.received_take, Reader.isOpen_take⟩

/-- A run of one step leaves one record in memory, with the number zero. -/
theorem emits_each_step_once_single :
    ∃ start : Integrator ℝ (MemorySink ℝ),
      Integrator.new (.enduring (some 1)) .empty = .ok start ∧
      ∃ r, (start.afterRequests [.run]).sink.records = [r] ∧ r.step = 0 := by
  have positive : ∀ n, some 1 = some n → 0 < n := by simp
  obtain ⟨start, accepted, endures, unplanned, stage, zero, _, sink⟩ :=
    exists_new_enduring positive (MemorySink.empty : MemorySink ℝ)
  obtain ⟨s, r, reason, _, _, _, _, ⟨_, ended, after⟩ | ⟨cause, failed, _⟩⟩ :=
    endures.ends_at_once (.inl stage) unplanned fun r => by
      simp [sink, DiagnosticsSink.emit, MemorySink.emit, MemorySink.empty]
  · have last : (start.afterRequests [.run]).steps = 1 := by
      have answered : start.run.after = start.stepOnce.after :=
        (loop_of_not_stepping (by simp [ended])).1
      simp only [afterRequests, List.foldl_cons, List.foldl_nil, serve, answered, after]
      simp [zero]
    obtain ⟨everySink, inMemory, _⟩ := emits_each_step_once (RunConfig.enduring (some 1))
    obtain ⟨same, numbered, _⟩ := everySink _ _ start accepted [.run]
    have records := inMemory start accepted [.run] (by simp)
    have steps : (start.observed.afterRequests [.run]).steps = 1 :=
      (congrArg Integrator.steps same).trans last
    have single : (start.observed.afterRequests [.run]).sink.records.map (·.step) = [0] := by
      rw [show [0] = List.range 1 from rfl, ← steps]
      exact numbered
    obtain ⟨record, only, first⟩ := List.map_eq_singleton_iff.mp single
    exact ⟨start, accepted, record, records.trans only, first⟩
  · simp [DiagnosticsSink.finish, MemorySink.finish] at failed

/-- **How often the records are ended.** A rejected configuration ends them once. In an accepted
run, after any sequence of requests, they were not ended as long as the run is live, and once
afterwards, except that they were ended twice when the sink refused the end of the run: then the
last step was committed and its record taken, and the step has failed nevertheless. No further
request makes a call to the sink of a run that is not live. -/
theorem finish_calls (c : RunConfig α) (sink : σ) :
    (∀ e s events, Integrator.new c (Observed.of sink : Observed α σ) = .error (e, s, events) →
      s.calls = [.finished (finish sink).2]) ∧
    ∀ start, Integrator.new c sink = .ok start → ∀ requests : List (Request σ),
      let i := start.observed.afterRequests (requests.map Request.observed)
      (i.lifecycle.IsLive → i.sink.finishes = 0) ∧
      (EndRefused i.steps i.lifecycle i.sink.calls → i.sink.finishes = 2) ∧
      (¬ i.lifecycle.IsLive → ¬ EndRefused i.steps i.lifecycle i.sink.calls →
        i.sink.finishes = 1) ∧
      (¬ i.lifecycle.IsLive → ∀ more : List (Request σ),
        (i.afterRequests (more.map Request.observed)).sink.calls = i.sink.calls) := by
  constructor
  · intro e s events rejected
    simp only [Integrator.new] at rejected
    split at rejected
    · simp at rejected
    · simp only [Except.error.injEq, Prod.mk.injEq] at rejected
      obtain ⟨_, rfl, _⟩ := rejected
      rfl
  · intro start accepted requests i
    obtain ⟨before, refused, once⟩ := (isTold_afterRequests accepted requests).finishes
    refine ⟨before, refused, once, fun dead more => ?_⟩
    have kept : (i.afterRequests (more.map Request.observed)).lifecycle = i.lifecycle ∧
        (i.afterRequests (more.map Request.observed)).sink.calls = i.sink.calls :=
      afterObserved_induction
        (P := fun j => j.lifecycle = i.lifecycle ∧ j.sink.calls = i.sink.calls)
        ⟨rfl, rfl⟩ (fun j ih => by rwa [(stepOnce_of_not_live (ih.1 ▸ dead)).1])
        fun _ _ _ ih => ih
    exact kept.2

/-- A sink that takes every record but refuses to be finished is finished twice by a run of one
step. -/
theorem finish_calls_refused :
    ∃ start : Integrator ℝ (Obliging ℝ),
      Integrator.new (.enduring (some 1)) { answer := .error .disconnected } = .ok start ∧
      let i := start.observed.afterRequests [.run]
      i.lifecycle = .failed 0 ∧ i.steps = 1 ∧ i.sink.finishes = 2 := by
  have positive : ∀ n, some 1 = some n → 0 < n := by simp
  obtain ⟨start, accepted, endures, unplanned, stage, zero, _, sink⟩ :=
    exists_new_enduring positive ({ answer := .error .disconnected } : Obliging ℝ)
  have answer : start.observed.sink.sink.answer = .error .disconnected :=
    congrArg Obliging.answer sink
  have first : start.observed.steps = 0 := zero
  have quiet : start.observed.sink.calls = [] := rfl
  obtain ⟨s, r, reason, _, _, _, _, ⟨finished, _⟩ | ⟨cause, _, failed, after⟩⟩ :=
    endures.observed.ends_at_once (.inl stage) unplanned fun r => rfl
  · have refused : start.observed.sink.sink.answer = .ok () := finished
    simp [answer] at refused
  · have answered : start.observed.afterRequests [.run] = start.observed.stepOnce.after :=
      (loop_of_not_stepping (by simp [failed])).1
    have taken : (emit start.observed.sink r.record).2 = .ok () := rfl
    have again : EndRefused start.observed.stepOnce.after.steps
        start.observed.stepOnce.after.lifecycle start.observed.stepOnce.after.sink.calls := by
      rw [after]
      exact ⟨0, by simp [first], by simp [first], by simp [quiet, taken]⟩
    obtain ⟨_, twice, _⟩ := (finish_calls _ _).2 start accepted [.run]
    refine ⟨start, accepted, ?_⟩
    rw [answered]
    refine ⟨by simp [after, first], by simp [after, first], ?_⟩
    rw [← answered] at again ⊢
    exact twice again

end Integrator
end DebrisDisk
