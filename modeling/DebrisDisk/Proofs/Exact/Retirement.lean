import DebrisDisk.Proofs.Exact.Enduring

/-!
# Grids, floors and retired bins over a run

The floor is resolved anew in every step, but from the upper end of the grid alone, which no step
touches: it never moves. A bin wholly below it, once retired, stays empty through every stage.
Supply and fragments have no share below the floor, and an empty bin has nothing to give. So only
the first step of a run can retire mass, and it retires what the initial grains held there.

## Main results

* `Evaluation.isBarren_passage`: after a step the bins below the floor are empty.
* `Integrator.IsFloored.stepOnce`: what one call keeps of grid, floor and records.
* `Integrator.floor_stays`: grid and floor never change, and only the first step retires mass.
-/

namespace DebrisDisk
open Scalar DiagnosticsSink

/-! ## Empty bins -/

/-- An empty bin gives nothing. -/
theorem getElem?_withdrawAll_of_zero {held : List ℝ} {j : ℕ} (empty : held[j]? = some 0)
    (taken : ℝ) (requests : List (Option ℝ)) :
    (withdrawAll taken held requests).1[j]? = some 0 := by
  -- On the bins. Those before the empty one change what was taken so far, so it is generalized.
  induction held generalizing taken requests j with
  | nil => simp at empty
  | cons m ms ih =>
    rcases requests with _ | ⟨_ | kg, rs⟩
    · exact empty
    · cases j with
      | zero => simpa [withdrawAll] using empty
      | succ j => simpa [withdrawAll] using ih (by simpa using empty) taken rs
    · by_cases fine : 0 ≤ m
      · simp only [withdrawAll, withdraw, fine, if_true]
        cases j with
        | zero =>
          obtain rfl : m = 0 := by simpa using empty
          have given : clamp kg 0 0 = (0 : ℝ) := by
            simpa using clamp_mem (x := kg) (le_refl (0 : ℝ))
          simp [given]
        | succ j => simpa using ih (by simpa using empty) (taken + clamp kg 0 m) rs
      · simpa [withdrawAll, withdraw, fine] using empty

/-- A bin without a change keeps its mass. -/
theorem getElem?_settle_of_zero {held changes : List ℝ} {j : ℕ}
    (idle : ∀ change, changes[j]? = some change → change = 0) :
    (settle held changes).1[j]? = held[j]? := by
  induction held generalizing changes j with
  | nil => simp [settle]
  | cons m ms ih =>
    rcases changes with _ | ⟨change, rest⟩
    · simp [settle]
    · cases j with
      | zero =>
        obtain rfl : change = 0 := idle change rfl
        simp [settle]
      | succ j =>
        have later := ih fun c h => idle c (by simpa using h)
        simp only [settle]
        split_ifs with gain loss
        · simpa using later
        · cases withdraw m (-change) with
          | none => rfl
          | some given => simpa using later
        · simpa using later

namespace SizeBins
variable {b : SizeBins ℝ} {floor : ℝ}

/-- The bins wholly below the floor are empty. -/
def IsBarren (b : SizeBins ℝ) (floor : ℝ) : Prop :=
  ∀ (j : ℕ) (span : ℝ × ℝ), b.spans[j]? = some span → span.2 ≤ floor → b.masses[j]? = some 0

/-- The mass in kilograms of the bins wholly below the floor. -/
noncomputable def massBelow (b : SizeBins ℝ) (floor : ℝ) : ℝ :=
  (List.zipWith (fun m (span : ℝ × ℝ) => if span.2 ≤ floor then m else 0) b.masses b.spans).sum

/-- Retirement takes the mass below the floor. -/
theorem retireBelow_eq_massBelow (b : SizeBins ℝ) (floor : ℝ) :
    (b.retireBelow floor).2 = b.massBelow floor := by
  simp only [retireBelow, massBelow, sum_real]
  generalize b.spans = spans
  induction b.masses generalizing spans with
  | nil => simp
  | cons m ms ih =>
    rcases spans with _ | ⟨span, spans⟩
    · simp
    · simp only [List.zip_cons_cons, List.filter_cons, List.zipWith_cons_cons, List.sum_cons,
        ← ih spans]
      by_cases below : span.2 ≤ floor
      · simp [below]
      · simp [below]

/-- Empty bins have no mass to retire. -/
theorem IsBarren.massBelow (barren : b.IsBarren floor) : b.massBelow floor = 0 := by
  refine List.sum_eq_zero fun kg hkg => ?_
  obtain ⟨j, hj⟩ := List.mem_iff_getElem?.mp hkg
  obtain ⟨m, span, held, hspan, rfl⟩ := List.getElem?_zipWith_eq_some.mp hj
  split_ifs with below
  · have empty := barren j span hspan below
    exact Option.some.inj (held.symm.trans empty)
  · rfl

/-- Retirement empties the bins below the floor. -/
theorem isBarren_retireBelow (shaped : b.IsShaped) (floor : ℝ) :
    (b.retireBelow floor).1.IsBarren floor := by
  intro j span hspan below
  have inside : j < b.masses.length := by
    rw [← shaped.spans]
    exact (List.getElem?_eq_some_iff.mp hspan).1
  exact (getElem?_retireBelow b floor j).mpr
    ⟨b.masses[j], span, List.getElem?_eq_getElem inside, hspan, if_pos below⟩

/-- A withdrawal leaves empty bins empty. -/
theorem IsBarren.withdrawAll (barren : b.IsBarren floor) (requests : List (Option ℝ)) :
    (b.withdrawAll requests).1.IsBarren floor :=
  fun j span hspan below => getElem?_withdrawAll_of_zero (barren j span hspan below) 0 requests

end SizeBins

/-- Supply leaves the bins below the floor empty. -/
theorem SizeBins.IsBarren.inject {b : SizeBins ℝ} {floor : ℝ} (barren : b.IsBarren floor)
    (s : SupplySettings ℝ) (kg : ℝ) : (s.inject b kg floor).1.IsBarren floor := by
  simp only [SupplySettings.inject]
  split_ifs
  · exact barren
  · exact barren
  · intro j span hspan below
    have inside : j < (s.shares b floor).length := by
      rw [SupplySettings.length_shares]
      exact (List.getElem?_eq_some_iff.mp hspan).1
    have share := List.getElem?_eq_getElem inside
    have nothing := SupplySettings.shares_of_below share hspan below
    refine List.getElem?_zipWith_eq_some.mpr ⟨0, 0, barren j span hspan below, ?_, by simp⟩
    rw [List.getElem?_map, share, nothing]
    simp

/-- An empty bin below the floor neither loses nor receives fragments. -/
theorem Parent.change_of_below {q floor : ℝ} {child : Parent ℝ} (empty : child.destroyed = 0)
    (below : child.upper ≤ floor) (larger : List (Parent ℝ)) :
    child.change q floor larger = 0 := by
  have loses : child.loss = 0 := by simp [loss, empty]
  have gains : ∀ kg ∈ larger.map fun p => p.gain q floor child, kg = 0 := by
    intro kg hkg
    obtain ⟨p, _, rfl⟩ := List.mem_map.mp hkg
    have nothing : powerLawIntegral (max child.lower floor) child.upper q = 0 :=
      SizeBins.powerLawIntegral_of_le q (le_max_of_le_right below)
    simp only [gain, gain?, fmax_real, nothing, zero_div, lt_irrefl, if_false]
    split_ifs
    · cases p.fragmentNorm? q floor <;> rfl
    · rfl
  rw [change_eq, loses, List.sum_eq_zero gains, sub_zero]

/-- Grinding leaves the bins below the floor empty. -/
theorem SizeBins.IsBarren.grind {b : SizeBins ℝ} {floor : ℝ} (barren : b.IsBarren floor)
    (s : CollisionSettings ℝ) (tColl : Timescale ℝ) (dt : Time ℝ) :
    (s.grind b tColl dt floor).1.IsBarren floor := by
  intro j span hspan below
  rw [CollisionSettings.grind_eq] at hspan ⊢
  have empty := barren j span hspan below
  rw [← empty]
  refine getElem?_settle_of_zero fun change hchange => ?_
  simp only [CollisionSettings.changes] at hchange
  split_ifs at hchange
  · simp at hchange
  · rw [Parent.getElem?_changes, Option.map_eq_some_iff] at hchange
    obtain ⟨p, hp, rfl⟩ := hchange
    obtain ⟨m, span', held, hspan', rfl⟩ := CollisionSettings.getElem?_parents_eq_some.mp hp
    obtain rfl := Option.some.inj (hspan.symm.trans hspan')
    obtain rfl := Option.some.inj (empty.symm.trans held)
    exact Parent.change_of_below (by simp) below _

namespace Evaluation
variable {e : Evaluation ℝ} {c : RunConfig ℝ} {dt : Time ℝ} {delivered : ℝ} {bins : SizeBins ℝ}

/-- After a step the bins wholly below the floor are empty. -/
theorem isBarren_passage (shaped : bins.IsShaped) :
    (e.passage c dt delivered bins).escaped.IsBarren e.floor.size.metres := by
  have retired : (e.passage c dt delivered bins).retired.IsBarren e.floor.size.metres :=
    SizeBins.isBarren_retireBelow shaped _
  have blownOut := (retired.inject c.supply delivered).withdrawAll ((e.removal c dt).map some)
  have sublimated : (e.passage c dt delivered bins).sublimated.IsBarren e.floor.size.metres := by
    rw [passage_sublimated]
    exact blownOut.withdrawAll _
  have ground := sublimated.grind c.collisions e.timescales.coll dt
  have dragged : (e.passage c dt delivered bins).dragged.IsBarren e.floor.size.metres := by
    rw [passage_dragged]
    exact ground.withdrawAll _
  rw [passage_escaped]
  exact dragged.withdrawAll _

end Evaluation

/-! ## The floor -/

/-- The floor depends on the grid alone. -/
theorem RunConfig.sizeFloorOf_sameGrid (c : RunConfig ℝ) {b b' : SizeBins ℝ}
    (same : b.SameGrid b') : c.sizeFloorOf b' = c.sizeFloorOf b := by
  simp [sizeFloorOf, SizeBins.maxSize, same.edges]

@[simp] theorem OpticalDepthRegime.depth_classify (tau : ℝ) : (classify tau).depth = tau := by
  unfold classify
  split <;> rfl

section Floor
variable {e : Evaluation ℝ} {c : RunConfig ℝ} {selector : PressureSelector ℝ} {state : DiskState ℝ}

/-- When the floor is the committed one, the optical depth of a step is that of the grains above the
committed floor. -/
theorem Evaluation.IsOf.tau_of_floor (h : e.IsOf c selector state)
    (committed : state.floor = e.floor.size) : e.tau = c.committedTau state := by
  rw [h.tau, h.activeSigma, h.active, ← committed]
  simp only [RunConfig.committedTau, mul_div_assoc]

/-- When the floor is the committed one, the collisional regime is that of the optical depth which
the step reports. -/
theorem Evaluation.IsOf.collisions_of_floor (h : e.IsOf c selector state)
    (committed : state.floor = e.floor.size) : e.collisions = .classify e.tau := by
  rw [h.collisions, h.tau_of_floor committed]

end Floor

/-- A record gives the floor of a run that was opened with some grains. Its regime is that of its
optical depth, and only the first record of the run retires mass. -/
structure StepRecord.KeepsFloor (r : StepRecord ℝ) (floor : SizeFloor ℝ) (opened : SizeBins ℝ) :
    Prop where
  size : r.disk.floor = floor.size.metres
  source : r.disk.floorSource = floor.source
  regime : r.collisions = .classify r.disk.tau
  first : r.step = 0 → r.removed.floor = opened.massBelow floor.size.metres
  later : 0 < r.step → r.removed.floor = 0

namespace Integrator
variable {σ : Type} {c : RunConfig ℝ} {opened : SizeBins ℝ}

/-- The grid and the floor are those of the grains that the run was opened with. The bins below the
floor are empty once a step was committed. -/
structure IsFloored (c : RunConfig ℝ) (opened : SizeBins ℝ) (i : Integrator ℝ (Observed ℝ σ)) :
    Prop where
  grid : opened.SameGrid i.state.bins
  floor : i.state.floor = (c.sizeFloorOf opened).size
  unstarted : i.steps = 0 → i.state.bins = opened
  barren : 0 < i.steps → i.state.bins.IsBarren (c.sizeFloorOf opened).size.metres
  records : ∀ r ∈ i.sink.records, r.KeepsFloor (c.sizeFloorOf opened) opened

namespace IsFloored
variable {i : Integrator ℝ (Observed ℝ σ)} {p : Preparation ℝ}

/-- A step finds the floor where it was. -/
theorem evaluation (floored : i.IsFloored c opened) (run : i.IsRunOf c p) {s : StepInputs ℝ}
    (inputs : s.IsOf i) : s.evaluation.floor = c.sizeFloorOf opened ∧
      s.evaluation.collisions = .classify s.evaluation.tau := by
  have found : s.evaluation.floor = c.sizeFloorOf opened := by
    rw [inputs.evaluation.floor, run.config, c.sizeFloorOf_sameGrid floored.grid]
  exact ⟨found, inputs.evaluation.collisions_of_floor (by rw [found, floored.floor])⟩

/-- A call that commits nothing keeps grid, floor and records. -/
theorem kept (floored : i.IsFloored c opened) {j : Integrator ℝ (Observed ℝ σ)}
    (same : i.CommitsNothing j) : j.IsFloored c opened where
  grid := by rw [same.state]; exact floored.grid
  floor := by rw [same.state]; exact floored.floor
  unstarted := by rw [same.state, same.steps]; exact floored.unstarted
  barren := by rw [same.state, same.steps]; exact floored.barren
  records := by rw [same.records]; exact floored.records

/-- A step that passed retires what the bins below the floor hold, which is nothing after the first
step. -/
theorem committed (floored : i.IsFloored c opened) (shaped : opened.IsShaped)
    (run : i.IsRunOf c p) {s : StepInputs ℝ} (gathered : i.inputs = .ok s) {r : Committed ℝ}
    (passed : i.advance s = .ok r) {sink : Observed ℝ σ}
    (records : sink.records = i.sink.records ++ [r.record]) (lifecycle : Lifecycle) :
    IsFloored c opened { (i.started s).commit r with sink, lifecycle } := by
  obtain ⟨floor, regime⟩ := floored.evaluation run (inputs_eq_ok gathered)
  obtain ⟨bins, flows, error, moved, _, state, record⟩ := Evaluation.advance_eq_ok passed
  obtain ⟨escaped, retired, _⟩ := Evaluation.moveMass_eq_some_iff.mp moved
  have shaped := floored.grid.isShaped shaped
  have grid : i.state.bins.SameGrid bins :=
    Evaluation.sameGrid_passage s.evaluation i.config s.dt s.delivered shaped _
      (by simp [escaped, Passage.stages])
  have barren : bins.IsBarren (c.sizeFloorOf opened).size.metres := by
    rw [escaped, ← floor]
    exact Evaluation.isBarren_passage shaped
  have flow : r.record.removed.floor =
      i.state.bins.massBelow (c.sizeFloorOf opened).size.metres := by
    rw [← SizeBins.retireBelow_eq_massBelow, ← floor, record]
    exact retired.symm
  have step : r.record.step = i.steps := by rw [record]; rfl
  have left : r.state.bins = bins := by rw [state]; rfl
  have stands : r.state.floor = (c.sizeFloorOf opened).size := by rw [state, ← floor]; rfl
  -- Before the first step the bins are those of the opening; later they are empty below the floor.
  have keeps : r.record.KeepsFloor (c.sizeFloorOf opened) opened := {
    size := by rw [record, ← floor]; rfl
    source := by rw [record, ← floor]; rfl
    regime := by
      rw [record, state]
      exact regime
    first := fun none => by rw [flow, floored.unstarted (step ▸ none)]
    later := fun some => by rw [flow, (floored.barren (step ▸ some)).massBelow] }
  exact {
    grid := by simpa [left] using floored.grid.trans grid
    floor := stands
    unstarted := by simp
    barren := by simpa [left] using barren
    records := by
      simp only [records, List.mem_append, List.mem_singleton]
      rintro _ (old | rfl)
      · exact floored.records _ old
      · exact keeps }

variable [DiagnosticsSink ℝ σ]

/-- One call keeps grid, floor and records. -/
theorem stepOnce (floored : i.IsFloored c opened) (shaped : opened.IsShaped)
    (run : i.IsRunOf c p) : i.stepOnce.after.IsFloored c opened := by
  rcases i.stepOnce_commits with
    ⟨_, same⟩ | ⟨s, r, sink, lifecycle, _, gathered, passed, sent, after⟩
  · exact floored.kept same
  · rw [after]
    exact floored.committed shaped run gathered passed sent lifecycle

end IsFloored

variable [DiagnosticsSink ℝ σ]

/-- Grid, floor and records of every accepted run are those of its opening. -/
theorem isFloored_afterRequests {sink : σ} {start : Integrator ℝ σ}
    (accepted : Integrator.new c sink = .ok start) (requests : List (Request σ)) :
    ∃ p, (start.observed.afterRequests (requests.map Request.observed)).IsRunOf c p ∧
      (start.observed.afterRequests (requests.map Request.observed)).IsFloored c
        start.state.bins := by
  obtain ⟨p, run, state, ledger⟩ := isRunOf_new accepted
  have shaped : start.state.bins.IsShaped := (isExact_of_start run state ledger).grid.shaped
  have opening : start.observed.IsFloored c start.state.bins := by
    obtain ⟨_, prepared, rfl⟩ := new_eq_ok accepted
    obtain ⟨_, _, _, bins, _, initial, _, _⟩ := RunConfig.prepare_eq_ok prepared
    exact {
      grid := .refl _
      floor := by rw [observed, mapSink, initial]; rfl
      unstarted := fun _ => rfl
      barren := by simp [observed, mapSink]
      records := by simp [observed, mapSink, Observed.of, Observed.records] }
  refine ⟨p, afterObserved_induction
    (P := fun j => j.IsRunOf c p ∧ j.IsFloored c start.state.bins) ⟨run.observed, opening⟩ ?_ ?_⟩
  · rintro j ⟨run, floored⟩
    exact ⟨run.stepOnce, floored.stepOnce shaped run⟩
  · rintro j change _ ⟨run, floored⟩
    exact ⟨run.withSink _ _, floored.kept (.change _ _)⟩

/-- **The floor stays, and only the first step retires mass.** Take an accepted run in exact
arithmetic after any sequence of requests, behind an observer, which changes nothing. The grid is
that of the grains the run was opened with. The floor that its configuration gives for this grid is
the floor of the state at the opening and now, and the one that the next step finds; so the
collisional regime of that step, which follows from the committed floor, is the regime of the
optical depth that it reports. Once a step was committed, every bin wholly below the floor is empty.
The records repeat the floor and the optical depth of their regime. The first of them has retired
what the bins below the floor held at the opening, and the others have retired nothing. -/
theorem floor_stays {sink : σ} {start : Integrator ℝ σ}
    (accepted : Integrator.new c sink = .ok start) (requests : List (Request σ)) :
    let i := start.observed.afterRequests (requests.map Request.observed)
    let opened := start.state.bins
    let floor := c.sizeFloorOf opened
    i.mapSink Observed.sink = start.afterRequests requests ∧
    opened.SameGrid i.state.bins ∧
    c.sizeFloorOf i.state.bins = floor ∧ start.state.floor = floor.size ∧
    i.state.floor = floor.size ∧
    (∀ s, i.inputs = .ok s → s.evaluation.floor = floor ∧
      s.evaluation.collisions = .classify s.evaluation.tau) ∧
    (0 < i.steps → i.state.bins.IsBarren floor.size.metres) ∧
    ∀ r ∈ i.sink.records, r.disk.floor = floor.size.metres ∧ r.disk.floorSource = floor.source ∧
      r.collisions.depth = r.disk.tau ∧
      (r.step = 0 → r.removed.floor = opened.massBelow floor.size.metres) ∧
      (1 ≤ r.step → r.removed.floor = 0) := by
  intro i opened floor
  obtain ⟨p, run, floored⟩ := isFloored_afterRequests accepted requests
  obtain ⟨_, _, unmoved⟩ := isFloored_afterRequests accepted []
  refine ⟨afterRequests_observed _ _, floored.grid, c.sizeFloorOf_sameGrid floored.grid,
    unmoved.floor, floored.floor, fun s gathered => ?_, floored.barren, fun r member => ?_⟩
  · exact floored.evaluation run (inputs_eq_ok gathered)
  · have keeps := floored.records r member
    exact ⟨keeps.size, keeps.source, by rw [keeps.regime, OpticalDepthRegime.depth_classify],
      keeps.first, keeps.later⟩

/-- The first step of the baseline run without a mass floor retires what the bins below the floor
held at the opening, and leaves them empty. -/
theorem floor_stays_single :
    ∃ start : Integrator ℝ (Obliging ℝ),
      Integrator.new (.enduring (some 1)) { answer := .ok () } = .ok start ∧
      let i := start.observed.afterRequests [.step]
      ∃ r, i.sink.records = [r] ∧ r.collisions.depth = r.disk.tau ∧
        r.removed.floor = start.state.bins.massBelow start.state.floor.metres ∧
        i.state.bins.massBelow i.state.floor.metres = 0 := by
  obtain ⟨start, r, _, accepted, records, step, steps, _⟩ := exists_new_single
  have served : start.observed.afterRequests ([.step].map Request.observed)
      = start.observed.stepOnce.after := rfl
  obtain ⟨_, _, _, opening, floor, _, barren, kept⟩ := floor_stays accepted [.step]
  rw [served] at floor barren kept
  obtain ⟨_, _, depth, first, _⟩ := kept r (by simp [records])
  refine ⟨start, accepted, r, records, depth, ?_, ?_⟩
  · rw [first step, opening]
  · exact floor ▸ (barren (by simp [steps])).massBelow

end Integrator
end DebrisDisk
