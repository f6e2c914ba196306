import Mathlib
import DebrisDisk.Proofs.Records
import DebrisDisk.Proofs.Exact.Decay

/-!
# Automatic steps

An automatic step is a given part of the shortest of the horizon and of the processes that act. The
shortest timescale is found by comparing the five of them one after the other, where a process that
does not act gives way to every other. `Timescale.IsShortest` says what comes of that: the least of
the durations, or no duration at all when there is none. Only the durations matter, so the processes
may stand in any order.

A run is planned once, by its first step, from the timescales that the record of that step reports.
What the calls before the first step that gathers its inputs leave behind differs from the new run
in its sink and its stage alone, so the plan does not depend on what was asked for meanwhile, and it
is never made again: `Integrator.PlansAs` is the invariant.

## Main results

* `TimescaleSet.isShortest_fastest`: the fastest timescale is the least finite one.
* `NumericsSettings.exists_isLeast_of_automatic`: what an automatic step is a part of.
* `Integrator.plan_afterRequests`: every step of a run follows the plan of its first one.
* `Integrator.automatic_steps_resolve`: both together, for every accepted run.
-/

namespace DebrisDisk
open Scalar DiagnosticsSink

/-! ## The shortest timescale -/

namespace Timescale

/-- The timescale is the least of the durations, and infinite when there is none. -/
def IsShortest : Timescale ℝ → Set ℝ → Prop
  | finite s, durations => IsLeast durations s
  | infinite, durations => durations = ∅

variable {t t' : Timescale ℝ} {durations durations' : Set ℝ}

/-- A process on its own. -/
theorem isShortest_self (t : Timescale ℝ) : t.IsShortest {s | t = finite s} := by
  cases t with
  | finite s => simp [IsShortest, isLeast_singleton]
  | infinite => simp [IsShortest]

namespace IsShortest

theorem unique (h : t.IsShortest durations) (h' : t'.IsShortest durations) : t = t' := by
  cases t with
  | finite s =>
    cases t' with
    | finite s' => rw [IsLeast.unique h h']
    | infinite => exact absurd (h' ▸ h.1) (Set.notMem_empty s)
  | infinite =>
    cases t' with
    | finite s' => exact absurd (h ▸ h'.1) (Set.notMem_empty s')
    | infinite => rfl

/-- The shorter of two timescales is the least of the durations of both. -/
theorem shorter (h : t.IsShortest durations) (h' : t'.IsShortest durations') :
    (t.shorter t').IsShortest (durations ∪ durations') := by
  cases t with
  | finite s =>
    cases t' with
    | finite s' => simpa [Timescale.shorter, IsShortest] using h.union h'
    | infinite => simpa [IsShortest, (show durations' = ∅ from h')] using h
  | infinite => simpa [IsShortest, (show durations = ∅ from h)] using h'

/-- With a bound there is always a least duration. -/
theorem isLeast_bounded (h : t.IsShortest durations) (bound : ℝ) :
    IsLeast (insert bound durations) (t.bounded bound) := by
  cases t with
  | finite s => simpa [bounded, min_comm] using h.insert bound
  | infinite => simp [bounded, (show durations = ∅ from h), isLeast_singleton]

end IsShortest
end Timescale

namespace TimescaleSet
variable {t t' : TimescaleSet ℝ} {s : ℝ}

/-- The durations in seconds of the processes that act. -/
def durations (t : TimescaleSet ℝ) : Set ℝ := {s | .finite s ∈ t.all}

/-- The fastest timescale is the least of those of the processes that act. -/
theorem isShortest_fastest (t : TimescaleSet ℝ) : t.fastest.IsShortest t.durations := by
  have of_each : t.durations = {s | t.blow = .finite s} ∪ {s | t.solid = .finite s} ∪
      {s | t.coll = .finite s} ∪ {s | t.drag = .finite s} ∪ {s | t.escape = .finite s} := by
    ext s
    simp [durations, all, or_assoc, eq_comm]
  rw [of_each]
  exact (((t.blow.isShortest_self.shorter t.solid.isShortest_self).shorter
    t.coll.isShortest_self).shorter t.drag.isShortest_self).shorter t.escape.isShortest_self

theorem fastest_eq_iff {time : Timescale ℝ} : t.fastest = time ↔ time.IsShortest t.durations :=
  ⟨fun same => same ▸ t.isShortest_fastest, t.isShortest_fastest.unique⟩

theorem fastest_eq_finite_iff : t.fastest = .finite s ↔ IsLeast t.durations s := fastest_eq_iff

theorem durations_eq_empty_iff : t.durations = ∅ ↔ ∀ time ∈ t.all, time = .infinite := by
  rw [Set.eq_empty_iff_forall_notMem]
  constructor
  · intro none time member
    cases time with
    | finite s => exact absurd member (none s)
    | infinite => rfl
  · intro idle s member
    exact absurd (idle _ member) (by simp)

theorem fastest_eq_infinite_iff :
    t.fastest = .infinite ↔ ∀ time ∈ t.all, time = .infinite := by
  rw [← durations_eq_empty_iff]
  exact fastest_eq_iff

/-- The processes may stand in any order. -/
theorem fastest_perm (same : t.all.Perm t'.all) : t'.fastest = t.fastest := by
  have durations : t'.durations = t.durations := Set.ext fun _ => same.mem_iff.symm
  exact fastest_eq_iff.mpr (durations ▸ t.isShortest_fastest)

end TimescaleSet

/-- An automatic step is a part of the shortest of the horizon and the processes that act. -/
theorem NumericsSettings.exists_isLeast_of_automatic {n : NumericsSettings ℝ}
    (automatic : n.step = .automatic) (horizon : Time ℝ) (timescales : TimescaleSet ℝ) :
    ∃ least, IsLeast (insert horizon.seconds timescales.durations) least ∧
      (n.plan horizon timescales).dt.seconds = n.safety * least := by
  refine ⟨_, timescales.isShortest_fastest.isLeast_bounded horizon.seconds, ?_⟩
  simp [plan, stepLength, automatic]

/-! ## One plan -/

namespace Integrator

section Plan
variable {α σ : Type} [Scalar α] {start i : Integrator α σ} {first s : StepInputs α}

/-- The run has the plan, or differs from the start in its sink and its stage alone. -/
def PlansAs (start : Integrator α σ) (p : StepPlan α) (i : Integrator α σ) : Prop :=
  i.plan = some p ∨ ∃ sink lifecycle, i = { start with sink, lifecycle }

/-- A step of a run that plans as the start does follows the plan of the first step. -/
theorem PlansAs.plan_of_inputs (gathered : start.inputs = .ok first)
    (alike : start.PlansAs first.plan i) (inputs : i.inputs = .ok s) : s.plan = first.plan := by
  obtain planned | ⟨sink, lifecycle, rfl⟩ := alike
  · exact Integrator.plan_of_inputs (inputs_eq_ok inputs) planned
  · have same : start.inputs = .ok s := inputs
    rw [Except.ok.inj (gathered.symm.trans same)]

/-- A record reports the timescales that its step started from, under the number of the step. -/
theorem reported_of_advance {r : Committed α} (passed : i.advance s = .ok r) :
    r.record.timescales = s.evaluation.timescales ∧ r.record.step = i.steps := by
  obtain ⟨_, _, _, _, _, _, record⟩ := Evaluation.advance_eq_ok passed
  rw [record]
  exact ⟨rfl, rfl⟩

variable [DiagnosticsSink α σ]

/-- After a call the run still plans as the start does. -/
theorem PlansAs.stepOnce (gathered : start.inputs = .ok first)
    (alike : start.PlansAs first.plan i) : start.PlansAs first.plan i.stepOnce.after := by
  have effect := i.stepOnce_effect
  generalize i.stepOnce.after = after at effect
  cases effect with
  | kept sink lifecycle =>
    obtain planned | ⟨_, _, rfl⟩ := alike
    · exact .inl planned
    · exact .inr ⟨sink, lifecycle, rfl⟩
  | blocked s o inputs stuck sink lifecycle =>
    exact .inl (congrArg some (alike.plan_of_inputs gathered inputs))
  | committed s r inputs passed sink lifecycle =>
    exact .inl (congrArg some (alike.plan_of_inputs gathered inputs))

/-- Whatever is asked of a new run, and whatever happens to its sink meanwhile, it has no plan but
that of its first step, and has it as soon as a step is committed. Every step follows it. -/
theorem plan_afterRequests (gathered : start.inputs = .ok first) (unplanned : start.plan = none)
    (unstarted : start.steps = 0) (requests : List (Request σ)) :
    let i := start.afterRequests requests
    (∀ s, i.inputs = .ok s → s.plan = first.plan) ∧ (∀ p, i.plan = some p → p = first.plan) ∧
      (0 < i.steps → i.plan = some first.plan) := by
  intro i
  have alike : start.PlansAs first.plan i := by
    refine afterRequests_induction (P := start.PlansAs first.plan)
      (.inr ⟨start.sink, start.lifecycle, rfl⟩) (fun _ kept => kept.stepOnce gathered) ?_
    rintro j change _ (planned | ⟨_, lifecycle, rfl⟩)
    · exact .inl planned
    · exact .inr ⟨_, lifecycle, rfl⟩
  refine ⟨fun s inputs => alike.plan_of_inputs gathered inputs, ?_⟩
  obtain planned | ⟨_, _, same⟩ := alike
  · exact ⟨fun p made => Option.some.inj (made.symm.trans planned), fun _ => planned⟩
  · simp [same, unplanned, unstarted]

end Plan

end Integrator

/-! ## Unbound grains in automatic steps -/

namespace RunConfig

/-- Blow-out is the only process that acts. -/
theorem IsPureBlowout.durations {c : RunConfig ℝ} {beta chi blow : ℝ} {e : Evaluation ℝ}
    {selector : PressureSelector ℝ} {state : DiskState ℝ} (pure : c.IsPureBlowout beta chi)
    (h : e.IsOf c selector state) (acts : e.timescales.blow = .finite blow) :
    e.timescales.durations = {blow} := by
  obtain ⟨_, _, rates⟩ := h.phase
  have aggregate : aggregateTimescale e.blowoutTimes e.eligible = .finite blow := by
    rw [h.timescales] at acts
    exact acts
  rw [h.timescales]
  ext s
  simp [TimescaleSet.durations, TimescaleSet.all, aggregate, eq_comm, rates, pure.solid h,
    SublimationSettings.rates, pure.sublimation, SublimationRates.inactive,
    CollisionSettings.timescale, pure.collisions, GasDragSettings.timescale, pure.gasDrag,
    HydroEscapeSettings.timescaleIn]

/-- Unbound grains, on which only blow-out acts, in automatic steps. -/
noncomputable def unboundAutomatic : RunConfig ℝ :=
  { unbound .none 1 with numerics := { (unbound .none 1).numerics with step := .automatic } }

theorem isPureBlowout_unboundAutomatic : unboundAutomatic.IsPureBlowout 1 1 :=
  (isPureBlowout_unbound 1).withStep .automatic

theorem isValid_unboundAutomatic : unboundAutomatic.IsValid :=
  have fixed : (unbound .none 1).IsValid := isValid_unbound one_pos
  { fixed with fixedStep := by simp [unboundAutomatic] }

theorem endures_unboundAutomatic : unboundAutomatic.Endures where
  floorless := rfl
  evaluates p prepared state := by
    rw [← Except.ok.inj (selector_default.symm.trans (prepare_eq_ok prepared).2.2.1)]
    exact exists_evaluate rfl rfl _ state

end RunConfig

/-! ## Whole runs -/

namespace Integrator
variable {σ : Type} [DiagnosticsSink ℝ σ]

/-- **Automatic steps resolve the fastest process.** Take an accepted run whose steps are automatic
and whose first call commits a step. The plan that is made from the timescales in the record of that
step has a positive step length: the safety factor times the least of the horizon and the finite
timescales of the record, so at most the safety factor times each of them. Whatever is asked of the
run, and whatever happens to its sink meanwhile, every step follows that plan and no other is made.

The fastest of five timescales is the finite one that is the least, and infinite only if all are;
the order of the five does not matter. -/
theorem automatic_steps_resolve {c : RunConfig ℝ} {sink : σ} {start : Integrator ℝ σ}
    (accepted : Integrator.new c sink = .ok start) (automatic : c.numerics.step = .automatic)
    {r : Committed ℝ} (first : start.committed? = some r) :
    (∃ p, p = c.numerics.plan start.horizon r.record.timescales ∧ r.record.step = 0 ∧
      c.numerics.horizon c.disk.omega = .ok start.horizon ∧ 0 < p.dt.seconds ∧
      (∃ least, IsLeast (insert start.horizon.seconds r.record.timescales.durations) least ∧
        p.dt.seconds = c.numerics.safety * least) ∧
      p.dt.seconds ≤ c.numerics.safety * start.horizon.seconds ∧
      (∀ s ∈ r.record.timescales.durations, p.dt.seconds ≤ c.numerics.safety * s) ∧
      ∀ requests, let i := start.afterRequests requests
        (∀ s, i.inputs = .ok s → s.plan = p) ∧ (∀ q, i.plan = some q → q = p) ∧
          (0 < i.steps → i.plan = some p)) ∧
    ∀ t : TimescaleSet ℝ, (∀ s, t.fastest = .finite s ↔ IsLeast t.durations s) ∧
      (t.fastest = .infinite ↔ ∀ time ∈ t.all, time = .infinite) ∧
      ∀ t' : TimescaleSet ℝ, t.all.Perm t'.all → t'.fastest = t.fastest := by
  refine ⟨?_, fun t => ⟨fun _ => t.fastest_eq_finite_iff, t.fastest_eq_infinite_iff,
    fun _ => t.fastest_perm⟩⟩
  obtain ⟨_, s, gathered, passed⟩ := committed?_eq_some_iff.mp first
  obtain ⟨q, run, _⟩ := isRunOf_new accepted
  obtain ⟨_, _, new⟩ := new_eq_ok accepted
  have unplanned : start.plan = none := by rw [new]
  have unstarted : start.steps = 0 := by rw [new]
  obtain ⟨valid, horizon, _⟩ := RunConfig.prepare_eq_ok run.prepared
  rw [← run.horizon] at horizon
  have inputs := inputs_eq_ok gathered
  obtain ⟨reported, numbered⟩ := reported_of_advance passed
  have plan : s.plan = c.numerics.plan start.horizon r.record.timescales := by
    rw [inputs.plan, reported]
    simp [planned, unplanned, run.config]
  have forward : s.plan.IsForward := by
    rw [plan, reported]
    exact NumericsSettings.isForward_plan valid (NumericsSettings.horizon_eq_ok_iff.mp horizon).2.1
      inputs.evaluation.isProper_timescales
  obtain ⟨least, isLeast, length⟩ := NumericsSettings.exists_isLeast_of_automatic automatic
    start.horizon r.record.timescales
  rw [← plan] at length
  have safety : 0 ≤ c.numerics.safety := valid.safety.1.1.le
  have within {s' : ℝ} (member : s' ∈ insert start.horizon.seconds r.record.timescales.durations) :
      s.plan.dt.seconds ≤ c.numerics.safety * s' := by
    rw [length]
    exact mul_le_mul_of_nonneg_left (isLeast.2 member) safety
  exact ⟨s.plan, plan, numbered.trans unstarted, horizon, forward.positive,
    ⟨least, isLeast, length⟩, within (Set.mem_insert _ _),
    fun s' member => within (Set.mem_insert_of_mem _ member),
    plan_afterRequests gathered unplanned unstarted⟩

/-- Unbound grains, which only blow out, in automatic steps: each step of the run is planned as a
tenth of the blow-out time, or of the horizon of two years if that is shorter. -/
theorem automatic_steps_resolve_unbound :
    let blow := RunConfig.unboundAutomatic.blowoutSeconds 1
    ∃ (start : Integrator ℝ (Obliging ℝ)) (r : Committed ℝ) (p : StepPlan ℝ),
      Integrator.new .unboundAutomatic { answer := .ok () } = .ok start ∧
      start.committed? = some r ∧ r.record.timescales.fastest = .finite blow ∧
      0 < p.dt.seconds ∧ p.dt.seconds = 0.1 * min 63115200 blow ∧
      ∀ requests s, (start.afterRequests requests).inputs = .ok s → s.plan = p := by
  intro blow
  obtain ⟨start, accepted, endures, _, stage, _⟩ :=
    exists_new_of_endures RunConfig.isValid_unboundAutomatic RunConfig.selector_default
      RunConfig.endures_unboundAutomatic ({ answer := .ok () } : Obliging ℝ)
  obtain ⟨s, r, gathered, passed, _⟩ := endures.passes
  have first : start.committed? = some r :=
    committed?_eq_some_iff.mpr ⟨.inl stage, s, gathered, passed⟩
  obtain ⟨⟨p, _, _, horizon, positive, ⟨least, isLeast, length⟩, _, _, follows⟩, fastest⟩ :=
    automatic_steps_resolve accepted rfl first
  have acts : r.record.timescales.blow = .finite blow :=
    (decayed_of_session RunConfig.isPureBlowout_unboundAutomatic accepted [.step] r
      (by simp [trace_step, first])).2.2
  have reported := (reported_of_advance passed).1
  have evaluation := (inputs_eq_ok gathered).evaluation
  rw [endures.config] at evaluation
  have alone : r.record.timescales.durations = {blow} := by
    rw [reported] at acts ⊢
    exact RunConfig.isPureBlowout_unboundAutomatic.durations evaluation acts
  have years : some (Time.ofYears NumericsSettings.defaultYears) = some start.horizon :=
    (NumericsSettings.horizon_eq_ok_iff.mp horizon).1
  have seconds : start.horizon.seconds = 63115200 := by
    rw [← Option.some.inj years]
    norm_num [Time.ofYears, NumericsSettings.defaultYears]
  rw [alone, seconds] at isLeast
  refine ⟨start, r, p, accepted, first, ?_, positive, ?_, fun requests => (follows requests).1⟩
  · exact ((fastest r.record.timescales).1 blow).mpr (alone ▸ isLeast_singleton)
  · rw [length, isLeast.unique (isLeast_singleton.insert 63115200)]
    rfl

end Integrator
end DebrisDisk
