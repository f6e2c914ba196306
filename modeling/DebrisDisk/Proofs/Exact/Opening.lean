import Mathlib
import DebrisDisk.Proofs.Interchange
import DebrisDisk.Proofs.Exact.Cooling
import DebrisDisk.Proofs.Exact.Acceptance

/-!
# The surface at the start

A history declares one temperature for its start. That temperature is what the checks bound, and
what the state before the first step is given. The first step does not ask for it: like any other
step it asks the history for the temperature of its time. A constant surface and both cooling laws
answer with what they declare. A table declares its first row, wherever that row stands. If it
stands at the start or after it, that is the temperature at the start as well; if it stands before
it, the table has moved on by then, to a temperature that nothing has bounded.

## Main definitions

* `SurfaceHistory.BeginsEarly`: the first row of a table stands before the start.
* `SurfaceHistory.OpensAt`: the declared temperature, and what a run makes of it.

## Main results

* `SurfaceHistory.temperatureAt_zero`: all histories but tables that begin early keep their word.
* `SurfaceHistory.opensAt_of_validate`: every accepted history.
-/

namespace DebrisDisk
open Scalar DiagnosticsSink

/-! ## Answers at the start -/

namespace SurfaceHistory

/-- A table that does not refuse to answer gives its interpolated value. -/
theorem temperatureAt_of_spoken {t : TemperatureTable ℝ} {time : Time ℝ}
    (spoken : ∀ at' first last,
      (table t).temperatureAt time ≠ .error (.outOfRange at' first last)) :
    (table t).temperatureAt time = .ok ⟨Table.interpolate t.knots time.seconds⟩ := by
  simp only [temperatureAt, TemperatureTable.temperatureAt, isFinite_real, if_true] at spoken ⊢
  split_ifs at spoken ⊢ with beyond
  · exact absurd rfl (spoken _ _ _)
  · rfl

/-- The history is a table whose first row stands before the start. -/
def BeginsEarly (h : SurfaceHistory ℝ) : Prop :=
  ∃ t r, h = .table t ∧ t.rows.head? = some r ∧ r.time < 0

/-- Up to its first row a table has the temperature of that row. -/
theorem interpolate_of_not_beginsEarly {t : TemperatureTable ℝ} {r : TemperatureRow ℝ}
    (valid : (table t).IsValid) (first : t.rows.head? = some r) (late : ¬ (table t).BeginsEarly) :
    Table.interpolate t.knots 0 = r.temperature := by
  have head : t.knots.head? = some (r.time, r.temperature) := by
    simp [TemperatureTable.knots, first]
  have passed : 0 ≤ r.time := by
    by_contra early
    exact late ⟨t, r, rfl, first, not_le.mp early⟩
  obtain ⟨nonempty, _, ascending⟩ := valid.2
  have knots := TemperatureTable.isTable_knots nonempty ascending
  exact knots.isInterpolant_interpolate.eq_of_before head passed

section Start
variable {h : SurfaceHistory ℝ} (valid : h.IsValid)
  (spoken : ∀ t first last, h.temperatureAt 0 ≠ .error (.outOfRange t first last))
include valid spoken

/-- An accepted history that answers at the start gives a positive temperature, since no time has
passed in which it could be spent. -/
theorem exists_temperatureAt_zero :
    ∃ surface, h.temperatureAt 0 = .ok surface ∧ 0 < surface.kelvin := by
  have answer := answer_of_isValid valid 0
  generalize given : h.temperatureAt 0 = outcome at answer
  cases answer with
  | silent first last beyond => exact absurd given (spoken _ _ _)
  | spent cooled =>
    obtain ⟨l, rfl, _, passed⟩ := cooled
    exact absurd passed (not_le.mpr (isUsable_of_linear valid).coolingTime_pos)
  | usable surface positive _ _ => exact ⟨surface, rfl, positive⟩

/-- A history keeps its word at the start, unless it is a table that begins early. -/
theorem temperatureAt_zero (late : ¬ h.BeginsEarly) {initial : ℝ}
    (declared : h.initial? = some initial) : h.temperatureAt 0 = .ok ⟨initial⟩ := by
  cases source : h.source with
  | analytic =>
    obtain ⟨initial', f, declared', falls, given⟩ := exists_fallsFrom valid source
    obtain rfl := Option.some.inj (declared'.symm.trans declared)
    rw [given]
    exact congrArg _ (Quantity.ext (falls.start 0 le_rfl))
  | table =>
    cases h with
    | table t =>
      obtain ⟨r, first, rfl⟩ := Option.map_eq_some_iff.mp declared
      rw [temperatureAt_of_spoken spoken]
      exact congrArg _ (Quantity.ext (interpolate_of_not_beginsEarly valid first late))
    | constant kelvin => cases source
    | slab l => cases source
    | linear l => cases source

end Start
end SurfaceHistory

/-! ## The opening of a run -/

namespace Integrator
variable {σ : Type} [DiagnosticsSink ℝ σ] {c : RunConfig ℝ} {sink : σ} {start : Integrator ℝ σ}

omit [DiagnosticsSink ℝ σ] in
/-- A step stores and records the temperature that the history has at its time. -/
theorem surface_of_committed? {i : Integrator ℝ σ} {r : Committed ℝ}
    (committed : i.committed? = some r) :
    i.config.surfaceAt i.state.time = .ok r.state.surface ∧
      r.record.disk.surface = r.state.surface.kelvin := by
  obtain ⟨_, s, gathered, passed⟩ := committed?_eq_some_iff.mp committed
  obtain ⟨_, _, _, _, _, state, record⟩ := Evaluation.advance_eq_ok passed
  rw [state, record]
  exact ⟨(inputs_eq_ok gathered).evaluation.surface, rfl⟩

/-- A run starts at time zero under the surface as it is declared. -/
theorem start_of_new (accepted : Integrator.new c sink = .ok start) {initial : ℝ}
    (declared : c.temperature.history.initial? = some initial) :
    start.config = c ∧ start.state.time = 0 ∧ start.state.surface = ⟨initial⟩ := by
  obtain ⟨p, isRun, state, _⟩ := isRunOf_new accepted
  obtain ⟨_, _, _, bins, _, opening, _⟩ := RunConfig.prepare_eq_ok isRun.prepared
  rw [state, opening]
  exact ⟨isRun.config, rfl, by simp [RunConfig.initialState, declared]⟩

end Integrator

/-! ## Main result -/

namespace SurfaceHistory

/-- What a history declares for its start, and what becomes of it. -/
structure OpensAt (h : SurfaceHistory ℝ) (initial : ℝ) : Prop where
  declared : h.initial? = some initial
  range : initial ∈ Set.Icc 1000 6500
  /-- The surface has the declared temperature at the start, unless the history is a table that
  begins early. -/
  punctual : ¬ h.BeginsEarly → h.temperatureAt 0 = .ok ⟨initial⟩
  /-- A table has its interpolated value at the start. -/
  early : ∀ t, h = .table t → h.temperatureAt 0 = .ok ⟨Table.interpolate t.knots 0⟩
  /-- The state before the first step of a run has the declared temperature. The first step uses the
  temperature at the start, stores and records it; the two are the same unless the history begins
  early. -/
  run : ∀ (c : RunConfig ℝ) (σ : Type) [DiagnosticsSink ℝ σ] (sink : σ) (start : Integrator ℝ σ),
    c.temperature.history = h → Integrator.new c sink = .ok start →
      start.state.surface = ⟨initial⟩ ∧
      ∃ surface, h.temperatureAt 0 = .ok surface ∧
        start.config.surfaceAt start.state.time = .ok surface ∧
        (∀ r, start.committed? = some r →
          r.state.surface = surface ∧ r.record.disk.surface = surface.kelvin) ∧
        (¬ h.BeginsEarly → surface = start.state.surface)

/-- **The declared temperature and the temperature at the start.** For every accepted history that
answers at the start, the two are equal and so within the bounds, and the first step finds the
surface that the state before it has, unless the history is a table whose first row stands before
the start. -/
theorem opensAt_of_validate {h : SurfaceHistory ℝ} (accepted : h.validate = .ok ())
    (spoken : ∀ t first last, h.temperatureAt 0 ≠ .error (.outOfRange t first last)) :
    ∃ initial, h.OpensAt initial := by
  have valid := validate_eq_ok_iff.mp accepted
  obtain ⟨initial, declared, low, high⟩ := valid.1
  refine ⟨initial, ?_⟩
  constructor
  case declared => exact declared
  case range =>
    norm_num [minInitial] at low
    norm_num [maxInitial] at high
    exact ⟨low, high⟩
  case punctual => exact fun late => temperatureAt_zero valid spoken late declared
  case early =>
    rintro t rfl
    exact temperatureAt_of_spoken spoken
  case run =>
    rintro c σ _ sink start rfl made
    obtain ⟨config, unstarted, opening⟩ := Integrator.start_of_new made declared
    obtain ⟨surface, given, positive⟩ := exists_temperatureAt_zero valid spoken
    have found : start.config.surfaceAt start.state.time = .ok surface := by
      rw [config, unstarted]
      exact RunConfig.surfaceAt_of_temperatureAt given positive
    refine ⟨opening, surface, given, found, ?_, ?_⟩
    · intro r committed
      obtain ⟨asked, recorded⟩ := Integrator.surface_of_committed? committed
      obtain rfl := Except.ok.inj (found.symm.trans asked)
      exact ⟨rfl, recorded⟩
    · intro late
      rw [opening]
      exact Except.ok.inj (given.symm.trans (temperatureAt_zero valid spoken late declared))

/-- A table that begins a hundred seconds before the start, and has another temperature by then. -/
noncomputable def cooled (early start : ℝ) : SurfaceHistory ℝ :=
  .table { rows := [⟨-100, early⟩, ⟨0, start⟩], extrapolation := .hold }

/-- Such a table is accepted with any positive temperature at the start. -/
theorem isValid_cooled {early start : ℝ} (range : early ∈ Set.Icc 1000 6500) (warm : 0 < start) :
    (cooled early start).IsValid := by
  have positive : 0 < early := lt_of_lt_of_le (by norm_num) range.1
  refine ⟨⟨early, rfl, ?_⟩, List.cons_ne_nil _ _, ?_, ?_⟩
  · norm_num [minInitial, maxInitial]
    exact range
  · simp [positive, warm]
  · norm_num [Table.descends]

/-- The table is accepted and declares 4000 K. The baseline run is accepted under it and begins with
4000 K, and its first step finds 500 K, which no history may declare. -/
theorem opensAt_of_validate_cooled :
    let history := cooled 4000 500
    history.validate = .ok () ∧
      (∀ t first last, history.temperatureAt 0 ≠ .error (.outOfRange t first last)) ∧
      history.BeginsEarly ∧ history.OpensAt 4000 ∧ history.temperatureAt 0 = .ok ⟨500⟩ ∧
      (500 : ℝ) ∉ Set.Icc 1000 6500 ∧
      ∃ start : Integrator ℝ (MemorySink ℝ),
        Integrator.new (RunConfig.default.under history) .empty = .ok start ∧
        start.state.surface = ⟨4000⟩ ∧
        start.config.surfaceAt start.state.time = .ok ⟨500⟩ := by
  intro history
  have valid : history.IsValid := isValid_cooled (by norm_num) (by norm_num)
  have accepted : history.validate = .ok () := validate_eq_ok_iff.mpr valid
  have spoken : ∀ t first last, history.temperatureAt 0 ≠ .error (.outOfRange t first last) := by
    simp [history, cooled, temperatureAt, TemperatureTable.temperatureAt, Functor.map, Except.map]
  obtain ⟨initial, opens⟩ := opensAt_of_validate accepted spoken
  obtain rfl : 4000 = initial := Option.some.inj opens.declared
  have value : history.temperatureAt 0 = .ok ⟨500⟩ := by
    have tail : [((-100 : ℝ), (4000 : ℝ)), (0, 500)].getLast? = some (0, 500) := rfl
    rw [opens.early _ rfl]
    have knots := TemperatureTable.isTable_knots valid.2.1 valid.2.2.2
    exact congrArg _ (Quantity.ext (knots.interpolate_after tail le_rfl))
  have acceptable := RunConfig.isValid_default.under valid
  obtain ⟨start, made⟩ := Integrator.exists_new_of_isValid acceptable RunConfig.selector_default
    (MemorySink.empty : MemorySink ℝ)
  obtain ⟨begins, surface, given, found, _⟩ := opens.run _ _ _ _ rfl made
  obtain rfl := Except.ok.inj (value.symm.trans given)
  exact ⟨accepted, spoken, ⟨_, _, rfl, rfl, by norm_num⟩, opens, value, by norm_num, start,
    made, begins, found⟩

end SurfaceHistory
end DebrisDisk
