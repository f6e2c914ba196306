import Mathlib
import DebrisDisk.Proofs.Interchange
import DebrisDisk.Proofs.Exact.Cooling
import DebrisDisk.Proofs.Exact.Horizon
import DebrisDisk.Proofs.Exact.Unbound

/-!
# Where a table of surface temperatures ends

A table that fails beyond its rows says the same about times within them as one that holds its ends.
So a run under the first makes the steps of a run under the second as long as they start within the
rows, and the first step that starts beyond them fails, before anything has moved.

With a fixed step length the steps start at its multiples. The first one beyond the last row has the
number `⌊last / dt⌋ + 1`. A step that starts on the last row is still made, and a table that ends
within the last step of a run is never missed.

## Main definitions

* `Integrator.StaysWithin`, `Integrator.LeavesAt`: the two courses of a run beside the one whose
  table holds its ends.

## Main results

* `Integrator.IsScheduled.time_of_fixed`: where the steps of fixed length start.
* `Integrator.table_ends`: which of the two courses a run takes, and with which step it fails.
-/

namespace DebrisDisk
open Scalar DiagnosticsSink

/-! ## Within the rows -/

section Rows
variable {rows : List (TemperatureRow ℝ)} {first last : TemperatureRow ℝ}
  (head : rows.head? = some first) (tail : rows.getLast? = some last)
include head tail

/-- Within the rows it does not matter what a table says beyond them. -/
theorem SurfaceHistory.temperatureAt_of_within {time : Time ℝ}
    (within : time.seconds ∈ Set.Icc first.time last.time) (e : Extrapolation) :
    (table { rows, extrapolation := .fail }).temperatureAt time =
      (table { rows, extrapolation := e }).temperatureAt time := by
  have inside : ¬ (time.seconds < first.time ∨ last.time < time.seconds) :=
    not_or.mpr ⟨not_lt.mpr within.1, not_lt.mpr within.2⟩
  simp only [temperatureAt, TemperatureTable.temperatureAt, TemperatureTable.knots, head, tail,
    Option.map_some, Option.getD_some, inside, and_false, if_false]

/-- A table that fails beyond its rows is silent just there. -/
theorem SurfaceHistory.isSilent_iff {t a b : ℝ} :
    (table { rows, extrapolation := .fail }).IsSilent t a b ↔
      (a = first.time ∧ b = last.time) ∧ (t < first.time ∨ last.time < t) := by
  constructor
  · rintro ⟨rows', same, head', tail', beyond⟩
    cases same
    obtain rfl : first.time = a := by simpa [head] using head'
    obtain rfl : last.time = b := by simpa [tail] using tail'
    exact ⟨⟨rfl, rfl⟩, beyond⟩
  · rintro ⟨⟨rfl, rfl⟩, beyond⟩
    exact ⟨rows, rfl, by simp [head], by simp [tail], beyond⟩

/-- A step that starts within the rows is made alike whether the table holds its ends or fails
beyond them. -/
theorem Integrator.stepsAlike_of_within {σ : Type} {c : RunConfig ℝ} {j : Integrator ℝ σ}
    (history : c.temperature.history = .table { rows, extrapolation := .fail })
    (config : j.config = c.under (.table { rows, extrapolation := .hold }))
    (within : j.state.time.seconds ∈ Set.Icc first.time last.time) : j.StepsAlike c := by
  have back : j.config.under c.temperature.history = c := by
    rw [config]
    rfl
  rw [← back]
  refine stepsAlike_under ?_ ?_
  · simp only [config, RunConfig.surfaceAt, RunConfig.under, history,
      SurfaceHistory.temperatureAt_of_within head tail within .hold]
  · rw [history, config]
    rfl

end Rows

/-- A table that holds its ends is never silent. -/
theorem SurfaceHistory.not_isSilent_of_hold {rows : List (TemperatureRow ℝ)} {t a b : ℝ} :
    ¬ (table { rows, extrapolation := .hold }).IsSilent t a b := by
  rintro ⟨rows', same, _⟩
  cases same

namespace Integrator
variable {σ : Type} [DiagnosticsSink ℝ σ] {c : RunConfig ℝ} {q : Preparation ℝ}
  {i : Integrator ℝ (Observed ℝ σ)}

/-! ## Steps of fixed length -/

namespace IsScheduled
variable (scheduled : i.IsScheduled c q)
include scheduled

theorem afterCalls (n : ℕ) : (i.afterCalls n).IsScheduled c q :=
  afterCalls_induction (P := fun j => j.IsScheduled c q) scheduled (fun _ kept => kept.stepOnce) n

/-- In exact arithmetic a call that leaves the run live has made a step. -/
theorem stepping_of_isLive (live : i.stepOnce.after.lifecycle.IsLive) :
    i.lifecycle.IsLive ∧ i.stepOnce.result = .stepping := by
  have goes : i.stepOnce.result = .stepping :=
    (i.isLive_stepOnce_iff.mp live).resolve_right scheduled.ne_refused
  refine ⟨?_, goes⟩
  by_contra dead
  exact (stepOnce_of_not_live dead).2 goes

/-- As long as the run is live every call makes a step. -/
theorem steps_of_isLive {n : ℕ} (live : (i.afterCalls n).lifecycle.IsLive) :
    (i.afterCalls n).steps = i.steps + n ∧
      ∀ m < n, (i.afterCalls m).stepOnce.result = .stepping := by
  suffices onward : ∀ m < n, (i.afterCalls m).stepOnce.result = .stepping from
    ⟨(steps_of_onward onward).1, onward⟩
  induction n with
  | zero => simp
  | succ n ih =>
    obtain ⟨before, goes⟩ := (scheduled.afterCalls n).stepping_of_isLive live
    intro m hm
    rcases Nat.lt_succ_iff_lt_or_eq.mp hm with earlier | rfl
    · exact ih before m earlier
    · exact goes

omit [DiagnosticsSink ℝ σ] in
/-- A fixed step length is planned as it is configured, or as long as the horizon. -/
theorem dt_of_fixed {seconds : ℝ} (fixed : c.numerics.step = .fixed seconds) {p : StepPlan ℝ}
    (planned : i.plan = some p) : p.dt.seconds = min seconds i.horizon.seconds := by
  obtain ⟨timescales, _, rfl⟩ := scheduled.run.plan p planned
  simp [NumericsSettings.plan, NumericsSettings.stepLength, fixed, scheduled.run.horizon]

omit [DiagnosticsSink ℝ σ] in
/-- Steps of fixed length start at its multiples. -/
theorem time_of_fixed {seconds : ℝ} (fixed : c.numerics.step = .fixed seconds)
    (live : i.lifecycle.IsLive) :
    i.state.time.seconds = i.steps * min seconds i.horizon.seconds := by
  cases planned : i.plan with
  | none =>
    have zero := scheduled.grid.unplanned planned
    rw [scheduled.grid.unstarted zero, zero]
    simp [Quantity.seconds]
  | some p =>
    rw [scheduled.grid.time_of_plan live planned, StepPlan.start_seconds,
      scheduled.dt_of_fixed fixed planned]

end IsScheduled

/-- A call on a live run without inputs fails before anything has moved. -/
theorem stepOnce_of_unprepared {i : Integrator ℝ (Observed ℝ σ)} (live : i.lifecycle.IsLive)
    {e : StepError ℝ} (missing : i.inputs = .error e) :
    i.stepOnce.after = { i with sink := (finish i.sink).1, lifecycle := .failed i.steps } ∧
      i.stepOnce.result = .error (.step i.steps e) := by
  simp [stepOnce_of_live live, attempt_eq, missing, fail]

/-! ## Beside a table that holds its ends -/

/-- The run makes the calls of the other, and never finds its table silent. -/
structure StaysWithin (i j : Integrator ℝ (Observed ℝ σ)) : Prop where
  alike : ∀ n, i.afterCalls n = (j.afterCalls n).withConfig i.config
  /-- No call fails over the end of the table. -/
  spoken : ∀ n step t a b,
    (i.afterCalls n).stepOnce.result ≠ .error (.step step (.temperature (.outOfRange t a b)))
  answer : i.run.result = j.run.result

/-- The run makes the first calls of the other, and with step `k` it finds its table silent. -/
structure LeavesAt (i j : Integrator ℝ (Observed ℝ σ)) (k : ℕ) (time first last : ℝ) : Prop where
  alike : ∀ n ≤ k, i.afterCalls n = (j.afterCalls n).withConfig i.config
  live : (i.afterCalls k).lifecycle.IsLive
  steps : (i.afterCalls k).steps = k
  clock : (i.afterCalls k).state.time.seconds = time
  fails : (i.afterCalls k).stepOnce.result =
    .error (.step k (.temperature (.outOfRange time first last)))
  /-- No other call fails over the end of the table. -/
  only : ∀ n step t a b, (i.afterCalls n).stepOnce.result =
    .error (.step step (.temperature (.outOfRange t a b))) → n = k
  /-- What is committed and recorded stays as the other run has it before that step. -/
  stage : (i.afterCalls (k + 1)).lifecycle = .failed k
  counter : (i.afterCalls (k + 1)).steps = k
  state : (i.afterCalls (k + 1)).state = (j.afterCalls k).state
  ledger : (i.afterCalls (k + 1)).ledger = (j.afterCalls k).ledger
  records : (i.afterCalls (k + 1)).sink.records = (j.afterCalls k).sink.records
  counted : (i.afterCalls (k + 1)).sink.records.length = k
  after : i.run.after = i.afterCalls (k + 1)
  answer : i.run.result = .error (.step k (.temperature (.outOfRange time first last)))

section Beside
variable {rows : List (TemperatureRow ℝ)} {first last : TemperatureRow ℝ} {seconds : ℝ}
  {j : Integrator ℝ (Observed ℝ σ)}
  (history : c.temperature.history = .table { rows, extrapolation := .fail })
  (head : rows.head? = some first) (tail : rows.getLast? = some last) (early : first.time ≤ 0)
  (fixed : c.numerics.step = .fixed seconds)
  (scheduled : j.IsScheduled (c.under (.table { rows, extrapolation := .hold })) q)
  (unstarted : j.steps = 0)

include fixed scheduled in
omit [DiagnosticsSink ℝ σ] in
theorem dt_pos_of_fixed : 0 < min seconds j.horizon.seconds := by
  obtain ⟨valid, horizon, _⟩ := RunConfig.prepare_eq_ok scheduled.run.prepared
  rw [scheduled.run.horizon]
  exact lt_min (valid.fixedStep seconds fixed).1
    (NumericsSettings.horizon_eq_ok_iff.mp horizon).2.1

include fixed scheduled unstarted in
/-- Each call starts the step of its number, at a multiple of the step length. -/
theorem steps_time_of_isLive {n : ℕ} (live : (j.afterCalls n).lifecycle.IsLive) :
    (j.afterCalls n).steps = n ∧
      (j.afterCalls n).state.time.seconds = n * min seconds j.horizon.seconds := by
  have counted : (j.afterCalls n).steps = n := by
    rw [(scheduled.steps_of_isLive live).1, unstarted, Nat.zero_add]
  have kept := scheduled.afterCalls n
  refine ⟨counted, ?_⟩
  rw [kept.time_of_fixed fixed live, counted, kept.run.horizon, scheduled.run.horizon]

include history head tail early fixed scheduled unstarted in
/-- A step that starts within the table is made alike. -/
theorem stepsAlike_of_le {n : ℕ} (live : (j.afterCalls n).lifecycle.IsLive)
    (within : n * min seconds j.horizon.seconds ≤ last.time) : (j.afterCalls n).StepsAlike c := by
  obtain ⟨_, time⟩ := steps_time_of_isLive fixed scheduled unstarted live
  have positive := dt_pos_of_fixed fixed scheduled
  refine stepsAlike_of_within head tail history ?_ ?_
  · exact (j.config_afterCalls n).trans scheduled.run.config
  · rw [time]
    exact ⟨early.trans (by positivity), within⟩

include scheduled in
/-- A table that holds its ends never fails a step. -/
theorem spoken_of_hold (n step : ℕ) (t a b : ℝ) :
    (j.afterCalls n).stepOnce.result ≠ .error (.step step (.temperature (.outOfRange t a b))) := by
  intro failed
  obtain ⟨_, _, missing⟩ := stepOnce_eq_temperature_iff.mp failed
  have valid := (RunConfig.prepare_eq_ok scheduled.run.prepared).1.history
  rw [j.config_afterCalls, scheduled.run.config, RunConfig.surfaceAt_eq_temperature_iff valid]
    at missing
  cases missing with
  | silent a b beyond => exact SurfaceHistory.not_isSilent_of_hold beyond

include history head tail early fixed scheduled unstarted in
/-- A run whose steps all start within the table stays within it. -/
theorem staysWithin_of_le (within : ∀ n, (j.afterCalls n).lifecycle.IsLive →
    n * min seconds j.horizon.seconds ≤ last.time) : (j.withConfig c).StaysWithin j := by
  have alike (n : ℕ) (live : (j.afterCalls n).lifecycle.IsLive) : (j.afterCalls n).StepsAlike c :=
    stepsAlike_of_le history head tail early fixed scheduled unstarted live (within n live)
  have calls (n : ℕ) : (j.withConfig c).afterCalls n = (j.afterCalls n).withConfig c :=
    afterCalls_of_stepsAlike (fun m _ => alike m) le_rfl
  constructor
  case alike => exact calls
  case spoken =>
    intro n step t a b failed
    rw [calls, stepOnce_of_stepsAlike (alike n)] at failed
    exact spoken_of_hold scheduled n step t a b failed
  case answer => exact run_result_of_stepsAlike alike

include history head tail scheduled in
/-- A step that starts beyond the table has no inputs. -/
theorem inputs_of_lt {n : ℕ} (beyond : last.time < (j.afterCalls n).state.time.seconds) :
    ((j.afterCalls n).withConfig c).inputs = .error (.temperature
      (.outOfRange (j.afterCalls n).state.time.seconds first.time last.time)) := by
  have valid : c.temperature.history.IsValid := by
    rw [history]
    exact (RunConfig.prepare_eq_ok scheduled.run.prepared).1.history
  rw [inputs_eq_error_iff, RunConfig.evaluate_eq_temperature_iff]
  change c.surfaceAt (j.afterCalls n).state.time = _
  rw [RunConfig.surfaceAt_eq_temperature_iff valid, history]
  exact .silent _ _ ((SurfaceHistory.isSilent_iff head tail).mpr ⟨⟨rfl, rfl⟩, .inr beyond⟩)

include scheduled unstarted in
/-- A run whose steps are made alike up to one that finds the table silent leaves it there. -/
theorem leavesAt_of_missing {k : ℕ} {time a b : ℝ}
    (alike : ∀ m < k, (j.afterCalls m).lifecycle.IsLive → (j.afterCalls m).StepsAlike c)
    (live : (j.afterCalls k).lifecycle.IsLive)
    (clock : (j.afterCalls k).state.time.seconds = time)
    (missing : ((j.afterCalls k).withConfig c).inputs =
      .error (.temperature (.outOfRange time a b))) :
    (j.withConfig c).LeavesAt j k time a b := by
  have calls {m : ℕ} (hm : m ≤ k) :
      (j.withConfig c).afterCalls m = (j.afterCalls m).withConfig c :=
    afterCalls_of_stepsAlike alike hm
  have results {m : ℕ} (hm : m < k) :
      ((j.withConfig c).afterCalls m).stepOnce.result = (j.afterCalls m).stepOnce.result := by
    rw [calls hm.le, stepOnce_of_stepsAlike (alike m hm)]
    rfl
  obtain ⟨counted, onward⟩ := scheduled.steps_of_isLive live
  have steps : (j.afterCalls k).steps = k := by omega
  obtain ⟨after, fails⟩ := stepOnce_of_unprepared (i := (j.afterCalls k).withConfig c) live missing
  have kept : (j.withConfig c).afterCalls (k + 1) = { (j.afterCalls k).withConfig c with
      sink := (finish (j.afterCalls k).sink).1, lifecycle := .failed (j.afterCalls k).steps } := by
    rw [afterCalls_succ, calls le_rfl]
    exact after
  have answer : ((j.withConfig c).afterCalls k).stepOnce.result =
      .error (.step k (.temperature (.outOfRange time a b))) := by
    rw [calls le_rfl, fails, show ((j.afterCalls k).withConfig c).steps = k from steps]
  have lasts : (j.withConfig c).Lasts k := {
    onward := fun m hm => (results hm).trans (onward m hm)
    stops := by
      rw [answer]
      exact nofun }
  constructor
  case alike => exact fun n hn => calls hn
  case live =>
    rw [calls le_rfl]
    exact live
  case steps =>
    rw [calls le_rfl]
    exact steps
  case clock =>
    rw [calls le_rfl]
    exact clock
  case fails => exact answer
  case only =>
    intro n step t a' b' failed
    rcases Nat.lt_trichotomy n k with earlier | same | later
    · rw [results earlier] at failed
      exact absurd failed (spoken_of_hold scheduled n step t a' b')
    · exact same
    · -- The run has failed by then, and later calls change nothing.
      obtain ⟨d, rfl⟩ := Nat.exists_eq_add_of_le (Nat.succ_le_of_lt later)
      have dead : ¬ ((j.withConfig c).afterCalls (k + 1)).lifecycle.IsLive := by
        rw [kept]
        exact Lifecycle.not_isLive_failed _
      rw [Nat.succ_eq_add_one, afterCalls_add, afterCalls_of_not_live dead] at failed
      exact absurd (stepOnce_eq_temperature_iff.mp failed).1 dead
  case stage =>
    rw [kept]
    exact congrArg Lifecycle.failed steps
  case counter =>
    rw [kept]
    exact steps
  case state =>
    rw [kept]
    rfl
  case ledger =>
    rw [kept]
    rfl
  case records =>
    rw [kept]
    exact Observed.records_finish _
  case counted =>
    rw [kept]
    have records := congrArg List.length (Observed.records_finish (j.afterCalls k).sink)
    exact records.trans ((scheduled.afterCalls k).grid.counted.trans steps)
  case after => exact lasts.run.1
  case answer =>
    have last := lasts.run.2
    simp only [runResult?, answer, Option.some.injEq] at last
    exact last.symm

omit [DiagnosticsSink ℝ σ] in
/-- The multiples of a positive length that are not beyond a time, and the first one that is. -/
theorem multiples_le_iff {dt time : ℝ} (positive : 0 < dt) (late : 0 ≤ time) (n : ℕ) :
    n * dt ≤ time ↔ n < ⌊time / dt⌋₊ + 1 := by
  rw [← le_div_iff₀ positive, ← Nat.le_floor_iff (div_nonneg late positive.le), Nat.lt_succ_iff]

include history head tail early fixed scheduled unstarted in
/-- A run with a step that starts beyond the table leaves it with the first such step. -/
theorem leavesAt_of_lt (late : 0 ≤ last.time) {n : ℕ} (reached : (j.afterCalls n).lifecycle.IsLive)
    (beyond : last.time < n * min seconds j.horizon.seconds) :
    let k := ⌊last.time / min seconds j.horizon.seconds⌋₊ + 1
    (j.withConfig c).LeavesAt j k (k * min seconds j.horizon.seconds) first.time last.time := by
  intro k
  have inside := multiples_le_iff (dt_pos_of_fixed fixed scheduled) late
  have earlier : k ≤ n := not_lt.mp fun less => absurd ((inside n).mpr less) (not_le.mpr beyond)
  have outside : last.time < k * min seconds j.horizon.seconds :=
    not_le.mp fun within => lt_irrefl k ((inside k).mp within)
  have live : (j.afterCalls k).lifecycle.IsLive := by
    by_contra dead
    obtain ⟨d, rfl⟩ := Nat.exists_eq_add_of_le earlier
    rw [afterCalls_add, afterCalls_of_not_live dead] at reached
    exact dead reached
  obtain ⟨_, clock⟩ := steps_time_of_isLive fixed scheduled unstarted live
  have missing := inputs_of_lt history head tail scheduled (clock ▸ outside)
  rw [clock] at missing
  refine leavesAt_of_missing scheduled unstarted (fun m hm live => ?_) live clock missing
  exact stepsAlike_of_le history head tail early fixed scheduled unstarted live ((inside m).mpr hm)

end Beside

/-! ## Main result -/

/-- A run is accepted whether its table holds its ends or fails beyond them, and starts alike. -/
theorem exists_new_of_hold {sink : σ} {start : Integrator ℝ σ}
    {rows : List (TemperatureRow ℝ)}
    (history : c.temperature.history = .table { rows, extrapolation := .fail })
    (accepted : Integrator.new c sink = .ok start) :
    ∃ held : Integrator ℝ σ,
      Integrator.new (c.under (.table { rows, extrapolation := .hold })) sink = .ok held ∧
        start = held.withConfig c ∧ held.steps = 0 := by
  obtain ⟨p, prepared, rfl⟩ := new_eq_ok accepted
  have same : (c.under (.table { rows, extrapolation := .hold })).prepare = .ok p := by
    rw [← prepared]
    refine RunConfig.prepare_under ?_ ?_
    · rw [history]
      rfl
    · rw [history]
      rfl
  exact ⟨_, new_of_prepare same sink, rfl, rfl⟩

/-- **A run ends with its table.** Take an accepted run in steps of fixed length under a table that
fails beyond its rows, which begin at the start or before it and end at the start or after it. The
same configuration is accepted with a table that holds its ends. Any step length that is planned is
`dt`, and each call on the second run starts the step of its number at that multiple of `dt`.

If all these steps start within the rows, the first run makes every call of the second, and no call
fails over the table. If one of them starts beyond the rows, the first run makes the calls of the
second up to step `⌊last / dt⌋ + 1` and fails there, at that multiple of `dt`, with as many records,
and with the state, the accounts and the records that the second run has then. An observer changes
nothing. -/
theorem table_ends {sink : σ} {start : Integrator ℝ σ} {rows : List (TemperatureRow ℝ)}
    {first last : TemperatureRow ℝ} {seconds : ℝ}
    (history : c.temperature.history = .table { rows, extrapolation := .fail })
    (head : rows.head? = some first) (tail : rows.getLast? = some last)
    (early : first.time ≤ 0) (late : 0 ≤ last.time) (fixed : c.numerics.step = .fixed seconds)
    (accepted : Integrator.new c sink = .ok start) :
    ∃ held : Integrator ℝ σ,
      Integrator.new (c.under (.table { rows, extrapolation := .hold })) sink = .ok held ∧
      let i := start.observed
      let j := held.observed
      let dt := min seconds start.horizon.seconds
      let k := ⌊last.time / dt⌋₊ + 1
      (∀ n, (i.afterCalls n).mapSink Observed.sink = start.afterCalls n ∧
        (j.afterCalls n).mapSink Observed.sink = held.afterCalls n) ∧
      0 < dt ∧
      (∀ n p, (i.afterCalls n).plan = some p ∨ (j.afterCalls n).plan = some p →
        p.dt.seconds = dt) ∧
      (∀ n, (j.afterCalls n).lifecycle.IsLive →
        (j.afterCalls n).steps = n ∧ (j.afterCalls n).state.time.seconds = n * dt) ∧
      ((∀ n : ℕ, (j.afterCalls n).lifecycle.IsLive → n * dt ≤ last.time) → i.StaysWithin j) ∧
      (∀ n : ℕ, (j.afterCalls n).lifecycle.IsLive → last.time < n * dt →
        i.LeavesAt j k (k * dt) first.time last.time) := by
  obtain ⟨held, accepted', rfl, unstarted⟩ := exists_new_of_hold history accepted
  obtain ⟨q, scheduled⟩ := isScheduled_afterRequests accepted' []
  obtain ⟨q', scheduled'⟩ := isScheduled_afterRequests accepted []
  change held.observed.IsScheduled _ q at scheduled
  change (held.withConfig c).observed.IsScheduled c q' at scheduled'
  refine ⟨held, accepted', fun n => ⟨?_, ?_⟩, dt_pos_of_fixed fixed scheduled, ?_,
    fun n live => steps_time_of_isLive fixed scheduled unstarted live,
    fun within => staysWithin_of_le history head tail early fixed scheduled unstarted within,
    fun n live beyond =>
      leavesAt_of_lt history head tail early fixed scheduled unstarted late live beyond⟩
  · rw [← afterCalls_mapSink Observed.answersAlike]
    rfl
  · rw [← afterCalls_mapSink Observed.answersAlike]
    rfl
  · rintro n p (planned | planned)
    · have kept := scheduled'.afterCalls n
      rw [kept.dt_of_fixed fixed planned, kept.run.horizon, ← scheduled'.run.horizon]
      rfl
    · have kept := scheduled.afterCalls n
      rw [kept.dt_of_fixed fixed planned, kept.run.horizon, ← scheduled.run.horizon]
      rfl

end Integrator

/-! ## A table that ends within the first step -/

namespace RunConfig

/-- A surface whose table holds its ends has a temperature at all times. -/
theorem exists_surfaceAt_of_hold {c : RunConfig ℝ} {rows : List (TemperatureRow ℝ)}
    (history : c.temperature.history = .table { rows, extrapolation := .hold })
    (valid : c.temperature.history.IsValid) (time : Time ℝ) :
    ∃ surface, c.surfaceAt time = .ok surface ∧ 0 < surface.kelvin := by
  have answer := SurfaceHistory.answer_of_isValid valid time
  generalize given : c.temperature.history.temperatureAt time = outcome at answer
  cases answer with
  | silent a b beyond =>
    rw [history] at beyond
    exact absurd beyond SurfaceHistory.not_isSilent_of_hold
  | spent cooled =>
    obtain ⟨l, linear, _⟩ := cooled
    rw [history] at linear
    cases linear
  | usable surface positive _ _ =>
    exact ⟨surface, surfaceAt_of_temperatureAt given positive, positive⟩

/-- Two steps of 1200 seconds under a table that ends after 500 seconds. -/
noncomputable def brief (e : Extrapolation) : RunConfig ℝ :=
  (unbound .none 1200).under (.table { rows := [⟨0, 3900⟩, ⟨500, 3800⟩], extrapolation := e })

theorem isValid_brief (e : Extrapolation) : (brief e).IsValid := by
  refine (isValid_unbound (by norm_num)).under ⟨⟨3900, rfl, ?_⟩, List.cons_ne_nil _ _, ?_, ?_⟩
  · norm_num [SurfaceHistory.minInitial, SurfaceHistory.maxInitial]
  · norm_num
  · norm_num [Table.descends]

theorem selector_brief (e : Extrapolation) : (brief e).sublimation.selector =
    .ok (.ladder [] (RunConfig.default : RunConfig ℝ).sublimation.baseline) :=
  selector_default

theorem endures_brief : (brief .hold).Endures where
  floorless := rfl
  evaluates p prepared state := by
    rw [← Except.ok.inj ((selector_brief .hold).symm.trans (prepare_eq_ok prepared).2.2.1)]
    obtain ⟨surface, found, warm⟩ :=
      exists_surfaceAt_of_hold rfl (isValid_brief .hold).history state.time
    refine exists_evaluate_of_surface rfl ?_ _ found warm
    norm_num [brief, under, unbound, RunConfig.default, TemperatureSettings.default]

end RunConfig

namespace Integrator

/-- With a table that holds its ends the first step is made, and the run goes on. -/
theorem goesOn_brief {held : Integrator ℝ (Obliging ℝ)}
    (accepted : Integrator.new (.brief .hold) { answer := .ok () } = .ok held) :
    held.observed.stepOnce.after.lifecycle.IsLive ∧
      held.observed.stepOnce.after.state.time.seconds = 1200 := by
  obtain ⟨start, accepted', enduring, _, stage, unstarted, time, _⟩ :=
    exists_new_of_endures (RunConfig.isValid_brief .hold) (RunConfig.selector_brief .hold)
      RunConfig.endures_brief ({ answer := .ok () } : Obliging ℝ)
  obtain rfl := Except.ok.inj (accepted.symm.trans accepted')
  have numerics : (RunConfig.brief .hold).numerics = (RunConfig.unbound .none 1200).numerics := rfl
  obtain ⟨r, _, _, _, stepping, _, state, _, clock⟩ :=
    enduring.observed.first_of_numerics numerics (by norm_num) (by norm_num) stage unstarted time
      fun _ => rfl
  exact ⟨.inr stepping, by rw [state, clock]⟩

/-- With a table that fails beyond its rows the run is accepted as well. It makes its first step,
which starts within them, and fails with the second, which starts at 1200 seconds. -/
theorem table_ends_brief :
    ∃ start : Integrator ℝ (Obliging ℝ),
      Integrator.new (.brief .fail) { answer := .ok () } = .ok start ∧
      start.observed.run.result = .error (.step 1 (.temperature (.outOfRange 1200 0 500))) ∧
      start.observed.run.after.sink.records.length = 1 := by
  obtain ⟨start, accepted⟩ := exists_new_of_isValid (RunConfig.isValid_brief .fail)
    (RunConfig.selector_brief .fail) ({ answer := .ok () } : Obliging ℝ)
  have tail : ([⟨0, 3900⟩, ⟨500, 3800⟩] : List (TemperatureRow ℝ)).getLast? = some ⟨500, 3800⟩ :=
    rfl
  obtain ⟨held, accepted', _, _, _, grid, _, leaves⟩ :=
    table_ends rfl rfl tail le_rfl (by norm_num) rfl accepted
  obtain ⟨live, clock⟩ := goesOn_brief accepted'
  have dt : 1200 = min 1200 start.horizon.seconds := by
    have step := (grid 1 live).2
    rwa [afterCalls_succ, afterCalls_zero, clock, Nat.cast_one, one_mul] at step
  have left := leaves 1 live
  have number : ⌊(500 : ℝ) / 1200⌋₊ + 1 = 1 := by norm_num
  rw [← dt, number, Nat.cast_one, one_mul] at left
  have fails := left (by norm_num)
  exact ⟨start, accepted, fails.answer, by rw [fails.after]; exact fails.counted⟩

end Integrator
end DebrisDisk
