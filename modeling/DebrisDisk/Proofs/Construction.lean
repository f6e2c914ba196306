import DebrisDisk.Proofs.Exact.Acceptance

/-!
# Between validation and the first step

A run is constructed from a configuration that was validated, but construction has checks of its
own, and four of them are not covered: the vapor pressure laws need a usable table or fit, the size
grid a finite upper end, the initial grains a bin that their power law fills, and the accounts a
positive finite mass. `RunConfig.IsBuildable` collects the four conditions. The surface history, the
horizon, the number of bins and the grain density are checked twice, with the same answer.

In exact arithmetic the last three conditions hold of every valid configuration, so only the vapor
pressure laws can reject it.

## Main results

* `SublimationSettings.selector_isOk_iff`: which settings give vapor pressure laws.
* `RunConfig.prepare_of_valid`: the checks that are left after validation, in order.
* `Integrator.new_of_validate`: which validated configurations are accepted, and why the others are
  rejected.
* `Integrator.new_isOk_iff_exact`: in exact arithmetic.
-/

namespace DebrisDisk
open Scalar DiagnosticsSink
variable {α : Type} [Scalar α]

omit [Scalar α] in
theorem require_eq_error_iff {p : Prop} [Decidable p] {e e' : ConfigError α} :
    require p e = .error e' ↔ ¬ p ∧ e = e' := by
  unfold require
  split <;> simp_all

/-! ## Vapor pressure laws -/

/-- The rows can be interpolated. -/
structure PressureRow.IsTable (rows : List (PressureRow α)) : Prop where
  several : 2 ≤ rows.length
  usable : ∀ r ∈ rows,
    0 < r.temperature ∧ isFinite r.temperature = true ∧ isFinite r.log10Pressure = true
  ascending : Table.descends (rows.map (·.temperature)) = false

theorem PressureRow.checkRows_isOk_iff {rows : List (PressureRow α)} :
    (∃ u, checkRows rows = .ok u) ↔ IsTable rows := by
  simp only [checkRows, bind_eq_ok_iff, require_eq_ok_iff, exists_const]
  constructor
  · rintro ⟨several, usable, ascending⟩
    exact { several, usable, ascending }
  · rintro ⟨several, usable, ascending⟩
    exact ⟨several, usable, ascending⟩

namespace SublimationSettings

/-- A line can be fitted to the table. -/
structure IsFit (s : SublimationSettings α) : Prop where
  points : 2 ≤ s.minPoints
  enough : s.minPoints ≤ s.table.length
  window : 0 ≤ s.window ∧ isFinite s.window = true
  table : PressureRow.IsTable s.table

/-- The vapor pressure laws that the settings ask for can be made of them. -/
def IsUsable (s : SublimationSettings α) : Prop :=
  match s.model with
  | .fixed .clausiusClapeyron => True
  | .fixed .tabulated => PressureRow.IsTable s.table
  | .fixed .localFit => s.IsFit
  | .automatic => s.table ≠ [] →
      PressureRow.IsTable s.table ∧ (s.minPoints ≤ s.table.length → s.IsFit)

theorem tabulatedLaw_isOk_iff {s : SublimationSettings α} :
    (∃ l, s.tabulatedLaw = .ok l) ↔ PressureRow.IsTable s.table := by
  rw [← PressureRow.checkRows_isOk_iff]
  simp [tabulatedLaw]

theorem fitLaw_isOk_iff {s : SublimationSettings α} : (∃ l, s.fitLaw = .ok l) ↔ s.IsFit := by
  have checks : (∃ l, s.fitLaw = .ok l) ↔ 2 ≤ s.minPoints ∧ s.minPoints ≤ s.table.length ∧
      (0 ≤ s.window ∧ isFinite s.window = true) ∧ ∃ u, PressureRow.checkRows s.table = .ok u := by
    simp [fitLaw, LocalFit.of]
  rw [checks, PressureRow.checkRows_isOk_iff]
  constructor
  · rintro ⟨points, enough, window, table⟩
    exact { points, enough, window, table }
  · rintro ⟨points, enough, window, table⟩
    exact ⟨points, enough, window, table⟩

theorem candidates_isOk_iff {s : SublimationSettings α} :
    (∃ l, s.candidates = .ok l) ↔ (s.table ≠ [] →
      PressureRow.IsTable s.table ∧ (s.minPoints ≤ s.table.length → s.IsFit)) := by
  rw [← tabulatedLaw_isOk_iff, ← fitLaw_isOk_iff, candidates]
  by_cases none : s.table = []
  · simp [none, pure, Except.pure]
  · by_cases enough : s.minPoints ≤ s.table.length
    · simp [none, enough, pure, Except.pure]
    · simp [none, enough, pure, Except.pure]

/-- The settings give vapor pressure laws just when these can be made of them. -/
theorem selector_isOk_iff {s : SublimationSettings α} :
    (∃ p, s.selector = .ok p) ↔ s.IsUsable := by
  cases asked : s.model with
  | fixed model =>
    cases model with
    | clausiusClapeyron => simp [selector, IsUsable, asked]
    | tabulated =>
      have several (table : PressureRow.IsTable s.table) : s.table ≠ [] := by
        intro none
        simpa [none] using table.several
      rw [← tabulatedLaw_isOk_iff] at several
      simp only [selector, IsUsable, asked, ← tabulatedLaw_isOk_iff]
      simpa [pure, Except.pure] using several
    | localFit => simp [selector, IsUsable, asked, ← fitLaw_isOk_iff]
  | automatic =>
    simp only [selector, IsUsable, asked, ← candidates_isOk_iff]
    simp [pure, Except.pure]

end SublimationSettings

/-! ## Initial grains -/

namespace RunConfig

/-- The empty bins of a run. -/
def grid (c : RunConfig α) : SizeBins α :=
  let edges := SizeBins.logEdges c.sizes.smallest c.sizes.greatest c.sizes.bins
  { edges, centres := SizeBins.geometricMeans edges
    masses := List.replicate c.sizes.bins 0, density := c.material.density }

/-- The share of each bin in the initial mass. -/
def initialShares (c : RunConfig α) : List α :=
  c.grid.powerLawWeights (c.initial.smallest.getD c.sizes.smallest) c.initial.slope

/-- The bins with the initial mass. -/
def population (c : RunConfig α) : SizeBins α :=
  { c.grid with
    masses := List.zipWith (fun _ w => (Mass.ofMarsMasses c.initial.marsMasses).kilograms * w)
      c.grid.masses c.initialShares }

/-- Of the checks on a valid grid only that of its upper end is left. -/
theorem logSpaced_of_valid {c : RunConfig α} (valid : c.IsValid) :
    SizeBins.logSpaced ⟨c.sizes.smallest⟩ ⟨c.sizes.greatest⟩ c.sizes.bins ⟨c.material.density⟩ = do
      require (isFinite c.sizes.greatest = true) (.sizeRange c.sizes.smallest c.sizes.greatest)
      return c.grid := by
  cases finite : isFinite c.sizes.greatest with
  | false => simp [SizeBins.logSpaced, require, finite, bind, Except.bind]
  | true =>
    simp [SizeBins.logSpaced, require, finite, valid.sizes, valid.density, valid.bins.ne', grid,
      bind, Except.bind]

/-- The checks on the initial grains that validation does not make. -/
theorem initialBins_of_valid {c : RunConfig α} (valid : c.IsValid) :
    c.initialBins = do
      require (isFinite c.sizes.greatest = true) (.sizeRange c.sizes.smallest c.sizes.greatest)
      require (c.initialShares.all isZero = false) .populationOutsideGrid
      return c.population := by
  rw [initialBins, logSpaced_of_valid valid]
  simp only [bind_assoc, pure_bind]
  rfl

/-! ## Construction -/

/-- What a valid configuration needs beyond validation to be accepted. -/
structure IsBuildable (c : RunConfig α) : Prop where
  laws : c.sublimation.IsUsable
  extent : isFinite c.sizes.greatest = true
  population : c.initialShares.all isZero = false
  mass : 0 < c.population.totalMass.kilograms ∧
    isFinite c.population.totalMass.kilograms = true

/-- Why a valid configuration is rejected; the checks are made in this order. -/
inductive Unbuildable (c : RunConfig α) : ConfigError α → Prop where
  | laws {e : ConfigError α} (unusable : c.sublimation.selector = .error e) : Unbuildable c e
  | extent (laws : c.sublimation.IsUsable) (infinite : isFinite c.sizes.greatest = false) :
      Unbuildable c (.sizeRange c.sizes.smallest c.sizes.greatest)
  | population (laws : c.sublimation.IsUsable) (extent : isFinite c.sizes.greatest = true)
      (unfilled : c.initialShares.all isZero = true) : Unbuildable c .populationOutsideGrid
  | mass (laws : c.sublimation.IsUsable) (extent : isFinite c.sizes.greatest = true)
      (population : c.initialShares.all isZero = false)
      (unweighable : ¬ (0 < c.population.totalMass.kilograms ∧
        isFinite c.population.totalMass.kilograms = true)) :
      Unbuildable c (.initialKilograms c.population.totalMass.kilograms)

/-- The checks that are left after validation, in order. -/
theorem prepare_of_valid {c : RunConfig α} (valid : c.IsValid) : ∃ horizon, c.prepare = do
    let selector ← c.sublimation.selector
    require (isFinite c.sizes.greatest = true) (.sizeRange c.sizes.smallest c.sizes.greatest)
    require (c.initialShares.all isZero = false) .populationOutsideGrid
    let ledger ← MassLedger.opening c.population.totalMass c.budget.tolerance
    return { selector, state := c.initialState c.population, ledger, horizon } := by
  obtain ⟨horizon, horizonOf⟩ := valid.horizon
  have checked : c.validate = .ok () := validate_eq_ok_iff.mpr valid
  have history : c.temperature.history.validate = .ok () :=
    SurfaceHistory.validate_eq_ok_iff.mpr valid.history
  refine ⟨horizon, ?_⟩
  rw [prepare, checked, disk, horizonOf, history, initialBins_of_valid valid]
  simp only [bind_assoc, pure_bind]
  rfl

/-- A valid configuration is prepared just when it is buildable. -/
theorem prepare_isOk_iff {c : RunConfig α} (valid : c.IsValid) :
    (∃ p, c.prepare = .ok p) ↔ c.IsBuildable := by
  obtain ⟨horizon, checks⟩ := prepare_of_valid valid
  have passes : (∃ p, c.prepare = .ok p) ↔ (∃ s, c.sublimation.selector = .ok s) ∧
      isFinite c.sizes.greatest = true ∧ c.initialShares.all isZero = false ∧
      0 < c.population.totalMass.kilograms ∧
        isFinite c.population.totalMass.kilograms = true := by
    rw [checks]
    simp [MassLedger.opening, pure, Except.pure]
  rw [passes, SublimationSettings.selector_isOk_iff]
  constructor
  · rintro ⟨laws, extent, population, mass⟩
    exact { laws, extent, population, mass }
  · rintro ⟨laws, extent, population, mass⟩
    exact ⟨laws, extent, population, mass⟩

/-- A valid configuration is rejected for the first check that it does not pass. -/
theorem prepare_eq_error_iff {c : RunConfig α} (valid : c.IsValid) {e : ConfigError α} :
    c.prepare = .error e ↔ c.Unbuildable e := by
  obtain ⟨horizon, checks⟩ := prepare_of_valid valid
  rw [checks]
  constructor
  · intro rejected
    simp only [MassLedger.opening, bind_eq_error_iff, bind_eq_ok_iff, require_eq_ok_iff,
      require_eq_error_iff, isPositive_iff, pure, Except.pure, reduceCtorEq, and_false,
      exists_false, or_false, exists_const, Bool.not_eq_true, Bool.not_eq_false] at rejected
    rcases rejected with unusable | ⟨selector, selected, rest⟩
    · exact .laws unusable
    · have laws := SublimationSettings.selector_isOk_iff.mp ⟨selector, selected⟩
      rcases rest with ⟨infinite, rfl⟩ | ⟨extent, ⟨unfilled, rfl⟩ | ⟨population, unweighable, rfl⟩⟩
      · exact .extent laws infinite
      · exact .population laws extent unfilled
      · exact .mass laws extent population unweighable
  · intro cause
    cases cause with
    | laws unusable => rw [unusable]; rfl
    | extent laws infinite =>
      obtain ⟨selector, selected⟩ := SublimationSettings.selector_isOk_iff.mpr laws
      simp [selected, infinite, require, bind, Except.bind]
    | population laws extent unfilled =>
      obtain ⟨selector, selected⟩ := SublimationSettings.selector_isOk_iff.mpr laws
      simp [selected, extent, unfilled, require, bind, Except.bind]
    | mass laws extent population unweighable =>
      obtain ⟨selector, selected⟩ := SublimationSettings.selector_isOk_iff.mpr laws
      simp [selected, extent, population, unweighable, MassLedger.opening, require, bind,
        Except.bind]

end RunConfig

namespace Integrator
variable {σ : Type} [DiagnosticsSink α σ]

/-- A run is rejected for the reason for which it is not prepared. -/
theorem new_eq_error_iff {c : RunConfig α} {sink : σ} {e : ConfigError α} :
    (∃ rest, Integrator.new c sink = .error (e, rest)) ↔ c.prepare = .error e := by
  cases prepared : c.prepare with
  | ok p => simp [Integrator.new, prepared]
  | error cause => simp [Integrator.new, prepared]

/-- A run is accepted when it is prepared. -/
theorem new_isOk_iff {c : RunConfig α} {sink : σ} :
    (∃ i, Integrator.new c sink = .ok i) ↔ ∃ p, c.prepare = .ok p := by
  constructor
  · rintro ⟨i, accepted⟩
    obtain ⟨p, prepared, _⟩ := new_eq_ok accepted
    exact ⟨p, prepared⟩
  · rintro ⟨p, prepared⟩
    exact ⟨_, new_of_prepare prepared sink⟩

/-- **Validation leaves four checks to construction.** A configuration that was validated is
accepted, with any sink, just when its vapor pressure laws can be made, the upper end of its grid is
finite, its power law fills a bin and its initial mass is positive and finite; otherwise it is
rejected for the first of these that fails. Neither the surface history nor the horizon, the number
of bins or the grain density rejects it any more. -/
theorem new_of_validate {c : RunConfig α} (passed : c.validate = .ok ()) (sink : σ) :
    ((∃ i, Integrator.new c sink = .ok i) ↔ c.IsBuildable) ∧
    ∀ e, (∃ rest, Integrator.new c sink = .error (e, rest)) ↔ c.Unbuildable e := by
  have valid := RunConfig.validate_eq_ok_iff.mp passed
  refine ⟨?_, fun e => ?_⟩
  · rw [new_isOk_iff, RunConfig.prepare_isOk_iff valid]
  · rw [new_eq_error_iff, RunConfig.prepare_eq_error_iff valid]

/-- In exact arithmetic only the vapor pressure laws can reject a configuration that was
validated. -/
theorem new_isOk_iff_exact [DiagnosticsSink ℝ σ] {c : RunConfig ℝ} (passed : c.validate = .ok ())
    (sink : σ) : (∃ i, Integrator.new c sink = .ok i) ↔ c.sublimation.IsUsable := by
  have valid := RunConfig.validate_eq_ok_iff.mp passed
  rw [new_isOk_iff]
  constructor
  · intro prepared
    exact ((RunConfig.prepare_isOk_iff valid).mp prepared).laws
  · intro usable
    obtain ⟨selector, laws⟩ := SublimationSettings.selector_isOk_iff.mpr usable
    obtain ⟨p, prepared, _⟩ := RunConfig.prepare_of_isValid valid laws
    exact ⟨p, prepared⟩

end Integrator

/-- The baseline run with interpolated vapor pressures, of which it has no table. -/
noncomputable def RunConfig.tableless : RunConfig ℝ :=
  { RunConfig.default with
    sublimation := { SublimationSettings.default with model := .fixed .tabulated } }

/-- The same run with a table of two rows. -/
noncomputable def RunConfig.tabled : RunConfig ℝ :=
  { RunConfig.tableless with
    sublimation := { RunConfig.tableless.sublimation with
      table := [⟨1500, 0⟩, ⟨2000, 1⟩] } }

theorem RunConfig.isUsable_tabled : RunConfig.tabled.sublimation.IsUsable where
  several := le_rfl
  usable := by norm_num [tabled]
  ascending := by norm_num [tabled, Table.descends]

/-- A run without the table that it asks for passes validation and is rejected afterwards. With a
table it is accepted, and nothing else was left to check. -/
theorem Integrator.new_of_validate_tableless :
    (RunConfig.tableless.validate = .ok () ∧
      ∃ rest, Integrator.new RunConfig.tableless (MemorySink.empty : MemorySink ℝ) =
        .error (.pressureTableMissing, rest)) ∧
    RunConfig.tabled.validate = .ok () ∧ RunConfig.tabled.IsBuildable ∧
      ∃ i, Integrator.new RunConfig.tabled (MemorySink.empty : MemorySink ℝ) = .ok i := by
  constructor
  · have valid : RunConfig.tableless.IsValid := { RunConfig.isValid_default with }
    have passed : RunConfig.tableless.validate = .ok () := RunConfig.validate_eq_ok_iff.mpr valid
    refine ⟨passed, ((new_of_validate passed MemorySink.empty).2 .pressureTableMissing).mpr ?_⟩
    exact .laws (by simp [RunConfig.tableless, SublimationSettings.selector,
      SublimationSettings.default, require, bind, Except.bind])
  · have valid : RunConfig.tabled.IsValid := { RunConfig.isValid_default with }
    have passed : RunConfig.tabled.validate = .ok () := RunConfig.validate_eq_ok_iff.mpr valid
    have accepted := (new_isOk_iff_exact passed (MemorySink.empty : MemorySink ℝ)).mpr
      RunConfig.isUsable_tabled
    exact ⟨passed, (new_of_validate passed MemorySink.empty).1.mp accepted, accepted⟩

end DebrisDisk
