import DebrisDisk.Proofs.Exact.Unbound
import DebrisDisk.Proofs.Interchange
import DebrisDisk.Proofs.Laws
import DebrisDisk.Proofs.Lockstep

/-!
# The stream of random numbers

Random numbers are drawn for nothing but a jittered supply. A supply without jitter, and one of
which nothing reaches the disk, leaves the stream alone, so the seed does not show in the run.

Whether a step draws depends on the time at which it starts and on its length, and when steps have a
fixed length neither depends on what happens in the disk. So before every step the time and the
place in the stream are functions of the number of steps alone, and runs of quite different disks
are delivered the same mass.

The guard of the draws asks whether the nominal mass is at most zero, which an undefined mass is
not: like a positive one, it is jittered.

## Main definitions

* `SupplySettings.Draws`: a step draws random numbers.
* `SupplySettings.clock`: the time and the place in the stream before each step.

## Main results

* `SupplySettings.sampleMass_random`: two numbers are drawn, or none.
* `Integrator.IsClocked.session`: a run that goes on follows the clock.
* `Integrator.random_stream`: what the random numbers touch.
-/

namespace DebrisDisk
open Scalar DiagnosticsSink
variable {α σ τ : Type} [Scalar α]

/-! ## What is drawn -/

namespace SupplySettings

/-- The mass in kilograms that a step would deliver without jitter. -/
def nominal (s : SupplySettings α) (t dt : Time α) : α := s.rate t * dt.seconds

/-- The step of length `dt` that starts at `t` draws random numbers: some supply reaches the disk,
it is jittered, and its nominal mass is positive or undefined. -/
def Draws (s : SupplySettings α) (t dt : Time α) : Prop :=
  s.isActive = true ∧ (0 < s.nominal t dt ∨ isNaN (s.nominal t dt) = true) ∧ 0 < s.jitter

instance (s : SupplySettings α) (t dt : Time α) : Decidable (s.Draws t dt) :=
  inferInstanceAs (Decidable (_ ∧ _ ∧ _))

/-- Nothing is jittered: the jitter is zero, or nothing reaches the disk. -/
def IsSteady (s : SupplySettings α) : Prop :=
  isZero s.jitter = true ∨ s.history = .none ∨ isZero s.mixing = true

variable [Ordered α] {s : SupplySettings α}

/-- A number is at most zero unless it is positive or undefined. -/
theorem nonpos_iff {x : α} : x ≤ 0 ↔ ¬ (0 < x ∨ isNaN x = true) := by
  constructor
  · rintro nonpos (positive | undefined)
    · exact Ordered.not_lt_of_le nonpos positive
    · simp [isNaN_eq_false_of_le nonpos] at undefined
  · intro neither
    have defined : x ≤ x := by simpa [isNaN] using (not_or.mp neither).2
    exact Ordered.le_of_not_lt Ordered.zero_le_zero defined (not_or.mp neither).1

omit [Ordered α] in
/-- A jitter takes two numbers of the stream. -/
theorem jitterFactor_random (sigma : α) (g : Random.Generator) :
    (jitterFactor sigma g).2 = { g with drawn := g.drawn + 2 } := rfl

/-- Two numbers are drawn, or none. -/
theorem sampleMass_random (s : SupplySettings α) (t dt : Time α) (g : Random.Generator) :
    (s.sampleMass t dt g).2 =
      { g with drawn := g.drawn + if s.Draws t dt then 2 else 0 } := by
  simp only [sampleMass, Draws, nominal]
  by_cases active : s.isActive = true
  · by_cases nonpos : s.rate t * dt.seconds ≤ 0
    · simp [active, nonpos, nonpos_iff.mp nonpos]
    · have some : 0 < s.rate t * dt.seconds ∨ isNaN (s.rate t * dt.seconds) = true :=
        Classical.not_not.mp (mt nonpos_iff.mpr nonpos)
      by_cases jittered : 0 < s.jitter
      · simp [active, nonpos, some, jittered, jitterFactor_random]
      · simp [active, nonpos, jittered]
  · simp [active]

theorem IsSteady.not_active_or_not_jittered (steady : s.IsSteady) :
    s.isActive = false ∨ ¬ 0 < s.jitter := by
  rcases steady with unjittered | none | unmixed
  · exact .inr (not_zero_lt_of_isZero unjittered)
  · exact .inl (by simp [isActive, none])
  · left
    have nothing := not_zero_lt_of_isZero unmixed
    cases history : s.history <;> simp [isActive, history, nothing]

/-- A supply without jitter delivers the same mass with any random numbers, and draws none. -/
theorem IsSteady.sampleMass (steady : s.IsSteady) (t dt : Time α) (g h : Random.Generator) :
    (s.sampleMass t dt h).1 = (s.sampleMass t dt g).1 ∧ (s.sampleMass t dt g).2 = g := by
  simp only [SupplySettings.sampleMass]
  rcases steady.not_active_or_not_jittered with idle | unjittered
  · simp [idle]
  · cases s.isActive with
    | false => simp
    | true =>
      by_cases nonpos : s.rate t * dt.seconds ≤ 0 <;> simp [nonpos, unjittered]

end SupplySettings

/-! ## The seed -/

/-- The configuration with another seed. -/
def RunConfig.reseeded (c : RunConfig α) (seed : Nat) : RunConfig α := { c with seed }

section Seed
variable [Ordered α] {c : RunConfig α}

/-- Without jitter the seed changes no step. -/
theorem RunConfig.alike_reseeded (steady : c.supply.IsSteady) (seed : Nat) :
    c.Alike id (fun g h => g = .ofSeed c.seed ∧ h = .ofSeed seed) (c.reseeded seed) where
  disk := rfl
  solar := rfl
  numerics := rfl
  evaluate _ _ := rfl
  supply := by
    rintro t dt g h ⟨rfl, rfl⟩
    exact ⟨(steady.sampleMass t dt _ _).1, (steady.sampleMass t dt _ (.ofSeed seed)).2,
      (steady.sampleMass t dt _ (.ofSeed seed)).2⟩
  advance := by
    intro selector state e _ step dt horizon delivered ledger
    have same : Committed.mapGate (id : GateDecision α → GateDecision α) = id := rfl
    rw [same, Except.map_id]
    rfl

variable [DiagnosticsSink α σ]

/-- Runs with different seeds and no jitter are the same run. -/
theorem Integrator.session_reseeded (steady : c.supply.IsSteady) (seed : Nat) {sink : σ}
    {i : Integrator α σ} (accepted : Integrator.new c sink = .ok i) :
    ∃ j, Integrator.new (c.reseeded seed) sink = .ok j ∧ ∀ demands,
      let p := i.session demands
      let q := j.session demands
      q.after = { p.after with config := c.reseeded seed, random := .ofSeed seed } ∧
        q.trace = p.trace ∧ q.answered = p.answered ∧
        q.after.stepOnce.result = p.after.stepOnce.result ∧
        q.after.run.result = p.after.run.result := by
  have sinks : SinksAlike (id : GateDecision α → GateDecision α) fun s t : σ => s = t := {
    emit := by
      rintro s _ rfl r
      exact ⟨rfl, rfl⟩
    finish := by
      rintro s _ rfl
      exact ⟨rfl, rfl⟩ }
  obtain ⟨j, accepted', twin⟩ :=
    twin_new (RunConfig.alike_reseeded steady seed) rfl ⟨rfl, rfl⟩ rfl accepted
  refine ⟨j, accepted', fun demands => ?_⟩
  have config : j.config = c.reseeded seed := by
    obtain ⟨p, _, rfl⟩ := new_eq_ok accepted'
    rfl
  obtain ⟨after, trace, answered⟩ := twin.session sinks demands
  have same : (Committed.mapGate id : Committed α → Committed α) = id := rfl
  rw [same, List.map_id] at trace
  refine ⟨?_, trace, answered, (after.stepOnce sinks).result, (after.run sinks).result⟩
  have kept := (j.config_session demands).trans config
  have stream := after.random.2
  have sink := after.sink
  have rest := And.intro after.selector <| And.intro after.state <| And.intro after.ledger <|
    And.intro after.horizon <| And.intro after.plan <| And.intro after.lifecycle after.steps
  generalize (j.session demands).after = q at kept stream sink rest
  cases q
  simp_all

end Seed

/-! ## The clock of the supply -/

namespace SupplySettings

/-- The time and the random numbers before the step with the given number, when steps take `dt` and
the last one lands on the horizon. -/
def clock (s : SupplySettings α) (dt horizon : Time α) (g : Random.Generator) :
    Nat → Time α × Random.Generator
  | 0 => (0, g)
  | k + 1 =>
    let (t, g) := s.clock dt horizon g k
    let (length, lands) := StepPlan.next { dt, horizon, maxSteps := 0 } t
    (if lands then horizon else t + length, (s.sampleMass t length g).2)

end SupplySettings

namespace Integrator
variable {c d : RunConfig α} {dt horizon : Time α} {i : Integrator α σ} {j : Integrator α τ}

/-- A run of a configuration with steps of a fixed length, up to the horizon: its time and its
random numbers are those of the clock. -/
structure IsClocked (c : RunConfig α) (dt horizon : Time α) (i : Integrator α σ) : Prop where
  config : i.config = c
  lengths : ∀ timescales, (i.planned timescales).1.dt = dt
  lands : ∀ timescales, (i.planned timescales).1.horizon = horizon
  clock : (i.state.time, i.random) = c.supply.clock dt horizon (.ofSeed c.seed) i.steps

namespace IsClocked

/-- What a step of the run samples follows from the number of the step. -/
theorem sampled (timed : i.IsClocked c dt horizon) {s : StepInputs α} (inputs : s.IsOf i) :
    let (t, g) := c.supply.clock dt horizon (.ofSeed c.seed) i.steps
    i.state.time = t ∧ (s.dt, s.lands) = StepPlan.next { dt, horizon, maxSteps := 0 } t ∧
      (s.delivered, s.random) = c.supply.sampleMass t s.dt g := by
  have next : (s.dt, s.lands) = StepPlan.next { dt, horizon, maxSteps := 0 } i.state.time := by
    rw [inputs.next, inputs.plan]
    simp only [StepPlan.next, timed.lengths, timed.lands]
  rw [← timed.clock]
  exact ⟨rfl, next, by rw [inputs.delivered, timed.config]⟩

variable [DiagnosticsSink α σ]

/-- A call after which the run goes on keeps it on the clock. -/
theorem stepOnce (timed : i.IsClocked c dt horizon) (goes : i.stepOnce.result = .stepping) :
    i.stepOnce.after.IsClocked c dt horizon := by
  have live : i.lifecycle.IsLive := by
    by_contra dead
    exact (stepOnce_of_not_live dead).2 goes
  have course := stepOnce_course live
  rw [goes] at course
  generalize i.stepOnce.after = after at course
  cases course with
  | onward s r gathered passed sent ending =>
    have inputs := inputs_eq_ok gathered
    obtain ⟨time, next, sample⟩ := timed.sampled inputs
    obtain ⟨_, _, _, _, _, state, _⟩ := Evaluation.advance_eq_ok passed
    have lengths : s.plan.dt = dt := by rw [inputs.plan, timed.lengths]
    have lands : s.plan.horizon = horizon := by rw [inputs.plan, timed.lands]
    refine {
      config := timed.config
      lengths := fun _ => lengths
      lands := fun _ => lands
      clock := ?_ }
    rw [← time, Prod.mk.injEq] at next sample
    have random : ((i.started s).commit r).random = s.random := rfl
    simp only [steps_commit, steps_started, SupplySettings.clock, ← time, ← next.1, ← next.2,
      ← sample.2, state_commit, state, Evaluation.stateAfter, lands, random]
    cases s.lands <;> rfl

theorem session (timed : i.IsClocked c dt horizon) {demands : List Demand}
    (answered : (i.session demands).answered = true)
    (live : (i.session demands).after.lifecycle.IsLive) :
    (i.session demands).after.IsClocked c dt horizon :=
  live_session_induction (P := IsClocked c dt horizon) timed (fun _ kept goes => kept.stepOnce goes)
    answered live

end IsClocked

/-- An accepted run with steps of a fixed length starts on the clock. -/
theorem isClocked_new [DiagnosticsSink α σ] {seconds : α} {sink : σ}
    (accepted : Integrator.new c sink = .ok i) (fixed : c.numerics.step = .fixed seconds)
    (horizonOf : c.numerics.horizon c.disk.omega = .ok horizon) :
    i.IsClocked c ⟨fmin seconds horizon.seconds⟩ horizon := by
  obtain ⟨p, prepared, rfl⟩ := new_eq_ok accepted
  obtain ⟨_, horizonOf', _, bins, _, state, _⟩ := RunConfig.prepare_eq_ok prepared
  obtain rfl := Except.ok.inj (horizonOf.symm.trans horizonOf')
  exact {
    config := rfl
    lengths := fun _ => by simp [planned, NumericsSettings.plan, NumericsSettings.stepLength, fixed]
    lands := fun _ => rfl
    clock := by simp [SupplySettings.clock, state, RunConfig.initialState] }

/-- Runs on the same clock that have made the same number of steps sample the same. -/
theorem IsClocked.sampled_alike (timed : i.IsClocked c dt horizon)
    (timed' : j.IsClocked d dt horizon) (supply : d.supply = c.supply) (seed : d.seed = c.seed)
    (steps : j.steps = i.steps)
    {s s' : StepInputs α} (gathered : i.inputs = .ok s) (gathered' : j.inputs = .ok s') :
    j.state.time = i.state.time ∧ s'.dt = s.dt ∧ s'.delivered = s.delivered ∧
      s'.random = s.random := by
  obtain ⟨time, next, sample⟩ := timed.sampled (inputs_eq_ok gathered)
  obtain ⟨time', next', sample'⟩ := timed'.sampled (inputs_eq_ok gathered')
  rw [supply, seed, steps] at time' next' sample'
  have lengths : s'.dt = s.dt := congrArg Prod.fst (next'.trans next.symm)
  rw [lengths, ← sample, Prod.mk.injEq] at sample'
  exact ⟨time'.trans time.symm, lengths, sample'⟩

/-! ## One call -/

/-- A live run whose next step draws random numbers. -/
def IsDrawing (i : Integrator α σ) : Prop :=
  i.lifecycle.IsLive ∧ ∃ s, i.inputs = .ok s ∧ i.config.supply.Draws i.state.time s.dt

/-- A call on a live run leaves the random numbers as they were gathered with its inputs. -/
theorem random_stepOnce [DiagnosticsSink α σ] (live : i.lifecycle.IsLive) {s : StepInputs α}
    (gathered : i.inputs = .ok s) : i.stepOnce.after.random = s.random := by
  have same (s' : StepInputs α) (gathered' : i.inputs = .ok s') : s'.random = s.random :=
    congrArg StepInputs.random (Except.ok.inj (gathered'.symm.trans gathered))
  have course := stepOnce_course live
  generalize i.stepOnce.after = after, i.stepOnce.result = answer at course
  cases course with
  | unprepared e failed => simp [gathered] at failed
  | refused s' gathered' => exact same s' gathered'
  | violated s' e gathered' => exact same s' gathered'
  | unsent s' r gathered' => exact same s' gathered'
  | onward s' r gathered' => exact same s' gathered'
  | unfinished s' r gathered' => exact same s' gathered'
  | ended s' r gathered' => exact same s' gathered'

/-- A call without inputs leaves the random numbers alone. -/
theorem random_stepOnce_of_error [DiagnosticsSink α σ] {e : StepError α}
    (gathered : i.inputs = .error e) : i.stepOnce.after.random = i.random := by
  have effect := i.stepOnce_effect
  generalize i.stepOnce.after = after at effect
  cases effect with
  | kept sink lifecycle => rfl
  | blocked s o gathered' => simp [gathered] at gathered'
  | committed s r gathered' => simp [gathered] at gathered'

/-- A call draws two numbers or none. -/
theorem drawn_stepOnce [Ordered α] [DiagnosticsSink α σ] (i : Integrator α σ) :
    (i.IsDrawing →
      i.stepOnce.after.random = { i.random with drawn := i.random.drawn + 2 }) ∧
    (¬ i.IsDrawing → i.stepOnce.after.random = i.random) := by
  by_cases live : i.lifecycle.IsLive
  · cases gathered : i.inputs with
    | error e =>
      refine ⟨fun drawing => ?_, fun _ => random_stepOnce_of_error gathered⟩
      obtain ⟨_, s, gathered', _⟩ := drawing
      simp [gathered] at gathered'
    | ok s =>
      have sample := (inputs_eq_ok gathered).delivered
      have random : s.random = (i.config.supply.sampleMass i.state.time s.dt i.random).2 :=
        congrArg Prod.snd sample
      rw [random_stepOnce live gathered, random, SupplySettings.sampleMass_random]
      constructor
      · rintro ⟨_, s', gathered', draws⟩
        obtain rfl := Except.ok.inj (gathered.symm.trans gathered')
        simp [draws]
      · intro idle
        have none : ¬ i.config.supply.Draws i.state.time s.dt :=
          fun draws => idle ⟨live, s, gathered, draws⟩
        simp [none]
  · refine ⟨fun drawing => absurd drawing.1 live, fun _ => ?_⟩
    rw [(stepOnce_of_not_live live).1]

/-! ## Main result -/

/-- **The random numbers touch nothing but the jitter of the supply.**

* Take a configuration of which the jitter is zero or no supply reaches the disk. With any other
  seed it is accepted as well, and after any requests the runs differ in nothing but the seed:
  state, accounts, plan and sink are the same, so are the committed steps and the next answers, and
  no random number was drawn.
* Take two accepted configurations with the same supply, the same seed, steps of the same fixed
  length and the same horizon, and nothing else in common. When both runs have made the same number
  of steps and go on, by any requests, the time, the length of the next step, the mass that is
  delivered to it and the random numbers after it are the same.
* A call draws two uniform numbers when it makes a step with some active supply, with a jitter and
  with a nominal mass that is positive or undefined. Any other call draws none. -/
theorem random_stream [Ordered α] [DiagnosticsSink α σ] [DiagnosticsSink α τ] :
    (∀ (c : RunConfig α) (seed : Nat) (sink : σ) (i : Integrator α σ), c.supply.IsSteady →
      Integrator.new c sink = .ok i →
      ∃ j, Integrator.new (c.reseeded seed) sink = .ok j ∧ ∀ demands,
        let p := i.session demands
        let q := j.session demands
        q.after = { p.after with config := c.reseeded seed, random := .ofSeed seed } ∧
          q.trace = p.trace ∧ q.answered = p.answered ∧
          q.after.stepOnce.result = p.after.stepOnce.result ∧
          q.after.run.result = p.after.run.result) ∧
    (∀ (c d : RunConfig α) (sink : σ) (sink' : τ) (i : Integrator α σ) (j : Integrator α τ)
      (seconds : α), Integrator.new c sink = .ok i → Integrator.new d sink' = .ok j →
      d.supply = c.supply → d.seed = c.seed → c.numerics.step = .fixed seconds →
      d.numerics.step = .fixed seconds →
      d.numerics.horizon d.disk.omega = c.numerics.horizon c.disk.omega →
      ∀ demands demands', (i.session demands).answered = true →
        (j.session demands').answered = true →
        let p := (i.session demands).after
        let q := (j.session demands').after
        p.lifecycle.IsLive → q.lifecycle.IsLive → q.steps = p.steps →
        ∀ s s', p.inputs = .ok s → q.inputs = .ok s' →
          q.state.time = p.state.time ∧ s'.dt = s.dt ∧ s'.delivered = s.delivered ∧
            s'.random = s.random) ∧
    ∀ i : Integrator α σ,
      (i.IsDrawing →
        i.stepOnce.after.random = { i.random with drawn := i.random.drawn + 2 }) ∧
      (¬ i.IsDrawing → i.stepOnce.after.random = i.random) := by
  refine ⟨fun c seed sink i steady accepted => session_reseeded steady seed accepted, ?_,
    drawn_stepOnce⟩
  intro c d sink sink' i j seconds accepted accepted' supply seed fixed fixed' horizon demands
    demands' answered answered' p q live live' steps s s' gathered gathered'
  obtain ⟨prepared, accepts, _⟩ := new_eq_ok accepted
  have horizonOf := (RunConfig.prepare_eq_ok accepts).2.1
  have timed := (isClocked_new accepted fixed horizonOf).session answered live
  have timed' := (isClocked_new accepted' fixed' (horizon.trans horizonOf)).session answered' live'
  exact timed.sampled_alike timed' supply seed steps gathered gathered'

end Integrator

/-! ## A sprinkled disk -/

namespace RunConfig

/-- Unbound grains of some mass under a jittered supply, for two steps. -/
noncomputable def sprinkled (marsMasses : ℝ) : RunConfig ℝ :=
  { unbound .none 60000 with
    initial := { InitialSettings.default with marsMasses }
    supply := { SupplySettings.default with history := .constant 1, jitter := 1 } }

variable {marsMasses : ℝ}

theorem isValid_sprinkled (positive : 0 < marsMasses) : (sprinkled marsMasses).IsValid :=
  { (isValid_unbound (by norm_num) : (unbound .none 60000).IsValid) with
    mass := ⟨positive, rfl⟩
    lower := by simp [sprinkled, InitialSettings.default]
    supply := ⟨zero_le_one, rfl⟩
    jitter := by simp [sprinkled] }

theorem endures_sprinkled : (sprinkled marsMasses).Endures where
  floorless := rfl
  evaluates p prepared state := by
    rw [← Except.ok.inj (selector_default.symm.trans (prepare_eq_ok prepared).2.2.1)]
    exact exists_evaluate rfl rfl _ state

end RunConfig

namespace Integrator

/-- The first step of a sprinkled disk draws two numbers, and the run goes on. -/
theorem exists_first_sprinkled {marsMasses : ℝ} (positive : 0 < marsMasses) :
    ∃ start : Integrator ℝ (Obliging ℝ),
      Integrator.new (.sprinkled marsMasses) { answer := .ok () } = .ok start ∧
      start.IsDrawing ∧ (start.session [.step]).answered = true ∧
      (start.session [.step]).after = start.stepOnce.after ∧
      start.stepOnce.after.lifecycle.IsLive ∧ start.stepOnce.after.steps = 1 ∧
      ∃ s, start.stepOnce.after.inputs = .ok s := by
  obtain ⟨start, accepted, endures, _, stage, unstarted, time, _⟩ :=
    exists_new_of_endures (RunConfig.isValid_sprinkled positive) RunConfig.selector_default
      RunConfig.endures_sprinkled ({ answer := .ok () } : Obliging ℝ)
  have numerics : (RunConfig.sprinkled marsMasses).numerics =
    (RunConfig.unbound .none 60000).numerics := rfl
  obtain ⟨r, _, goes, kept, stage', steps, _⟩ :=
    endures.first_of_numerics numerics (by norm_num) (by norm_num) stage unstarted time fun _ => rfl
  obtain ⟨s', _, gathered', _⟩ := kept.passes
  have session : start.session [.step] =
      { start.stepOnce.after.session [] with trace := start.committed?.toList ++ [] } := by
    rw [session_step, goes]
    rfl
  refine ⟨start, accepted, ?_, by rw [session]; rfl, by rw [session]; rfl, .inr stage', steps, s',
    gathered'⟩
  obtain ⟨s, _, gathered, _⟩ := endures.passes
  obtain ⟨p, run⟩ := endures.run
  have horizonOf := (RunConfig.prepare_eq_ok run.prepared).2.1
  have years : some (Time.ofYears NumericsSettings.defaultYears) = some p.horizon :=
    (NumericsSettings.horizon_eq_ok_iff.mp horizonOf).1
  have horizon : p.horizon.seconds = 63115200 := by
    rw [← Option.some.inj years]
    norm_num [Time.ofYears, NumericsSettings.defaultYears]
  have dt : s.dt.seconds = 60000 := by
    have fixed : (RunConfig.sprinkled marsMasses).numerics.step = .fixed 60000 := rfl
    obtain ⟨begun, next, _⟩ :=
      (isClocked_new accepted fixed horizonOf).sampled (inputs_eq_ok gathered)
    rw [← begun, time, StepPlan.next, if_neg (by norm_num [horizon]), Prod.mk.injEq] at next
    rw [next.1]
    norm_num [horizon]
  refine ⟨.inl stage, s, gathered, ?_⟩
  rw [endures.config]
  norm_num [SupplySettings.Draws, SupplySettings.isActive, SupplySettings.nominal,
    SupplySettings.rate, SupplyHistory.rateAt, RunConfig.sprinkled, SupplySettings.default, dt]

/-- Sprinkled disks of one and of two units of mass are delivered the same in their second step,
after two numbers were drawn in the first. The seed of a disk without supply does not show. -/
theorem random_stream_sprinkled :
    (∃ (start start' : Integrator ℝ (Obliging ℝ)) (s s' : StepInputs ℝ),
      Integrator.new (.sprinkled 1) { answer := .ok () } = .ok start ∧
      Integrator.new (.sprinkled 2) { answer := .ok () } = .ok start' ∧
      start.stepOnce.after.steps = 1 ∧ start'.stepOnce.after.steps = 1 ∧
      start.stepOnce.after.random.drawn = 2 ∧ start.stepOnce.after.inputs = .ok s ∧
      start'.stepOnce.after.inputs = .ok s' ∧ s'.delivered = s.delivered) ∧
    ∃ (start start' : Integrator ℝ (Obliging ℝ)) (r : Committed ℝ),
      Integrator.new (.unbound .none 60000) { answer := .ok () } = .ok start ∧
      Integrator.new ((RunConfig.unbound .none 60000).reseeded 7) { answer := .ok () } =
        .ok start' ∧
      (start.session [.step]).trace = [r] ∧ (start'.session [.step]).trace = [r] := by
  obtain ⟨seeds, paces, draws⟩ :=
    random_stream (α := ℝ) (σ := Obliging ℝ) (τ := Obliging ℝ)
  constructor
  · obtain ⟨start, accepted, drawing, answered, after, live, steps, s, gathered⟩ :=
      exists_first_sprinkled (one_pos : (0 : ℝ) < 1)
    obtain ⟨start', accepted', _, answered', after', live', steps', s', gathered'⟩ :=
      exists_first_sprinkled (two_pos : (0 : ℝ) < 2)
    have drawn : start.stepOnce.after.random.drawn = 2 := by
      obtain ⟨p, _, rfl⟩ := new_eq_ok accepted
      rw [(draws _).1 drawing]
      rfl
    have alike := paces _ _ _ _ start start' 60000 accepted accepted' rfl rfl rfl rfl rfl [.step]
      [.step] answered answered'
    rw [after, after'] at alike
    obtain ⟨_, _, delivered, _⟩ :=
      alike live live' (steps'.trans steps.symm) s s' gathered gathered'
    exact ⟨start, start', s, s', accepted, accepted', steps, steps', drawn, gathered, gathered',
      delivered⟩
  · obtain ⟨start, r, _, accepted, one, _⟩ :=
      exists_steps_unbound .none 60000 (by norm_num) (by norm_num)
        ({ answer := .ok () } : Obliging ℝ) (fun _ => rfl) fun _ _ => rfl
    obtain ⟨start', accepted', sessions⟩ := seeds _ 7 _ start (.inr (.inl rfl)) accepted
    exact ⟨start, start', r, accepted, accepted', one, (sessions [.step]).2.1.trans one⟩

end Integrator
end DebrisDisk
