import Mathlib
import DebrisDisk.Proofs.Course
import DebrisDisk.Proofs.Exact.Interpolation

/-!
# The cooling surface

A history of the surface temperature is checked once, before the run, and every step asks it for a
temperature that has to be positive. In exact arithmetic every history that is accepted gives one,
with two exceptions. A table that says nothing about times beyond its ends is silent there. And the
linear law, for which a floor of zero is accepted, reaches that floor and stays there: the surface
is spent, and no step can be made any more.

A cooling law falls from its initial value, which it has up to the start: the slab because the
inverse cube of its temperature grows, the linear law because its slope is the drop over the cooling
time.

## Main definitions

* `FallsFrom`: a temperature that never rises and starts from a value.
* `SurfaceHistory.IsSilent`, `SurfaceHistory.IsSpent`: the two exceptions.
* `SurfaceHistory.Answer`: what an accepted history makes of a time.

## Main results

* `SlabLayer.fallsFrom_temperatureAt`, `LinearLayer.fallsFrom_temperatureAt`: the cooling laws.
* `LinearLayer.temperatureAt_eq_floor_iff`: the linear law ends on its floor.
* `SurfaceHistory.answer_of_isValid`: every accepted history at every time.
* `SurfaceHistory.lasts_of_validate`: every run with an accepted history.
-/

namespace DebrisDisk
open Scalar

/-- A temperature never rises with time, and has its initial value up to the start. -/
structure FallsFrom (initial : ℝ) (f : ℝ → ℝ) : Prop where
  anti : Antitone f
  start : ∀ t ≤ 0, f t = initial

theorem FallsFrom.le {initial : ℝ} {f : ℝ → ℝ} (h : FallsFrom initial f) (t : ℝ) :
    f t ≤ initial := by
  rw [← h.start (min t 0) (min_le_right _ _)]
  exact h.anti (min_le_left _ _)

/-! ## The slab -/

namespace SlabLayer

/-- The parameters of a slab that is accepted. -/
structure IsUsable (l : SlabLayer ℝ) : Prop where
  hot : 0 < l.initial
  deep : 0 < l.depth
  dense : 0 < l.density
  capacity : 0 < l.heatCapacity

/-- The inverse cube of the temperature grows at a constant rate from the start. -/
noncomputable def inverseCube (l : SlabLayer ℝ) (t : ℝ) : ℝ :=
  l.initial ^ (-3 : ℤ) + l.coefficient * max t 0

theorem temperatureAt_eq (l : SlabLayer ℝ) (t : ℝ) :
    l.temperatureAt t = l.inverseCube t ^ (-1 / 3 : ℝ) := by
  simp only [temperatureAt, inverseCube, pow_real, powi_real, fmax_real]
  norm_num

namespace IsUsable
variable {l : SlabLayer ℝ} (usable : l.IsUsable)
include usable

theorem coefficient_pos : 0 < l.coefficient := by
  have column : 0 < l.depth * l.density * l.heatCapacity :=
    mul_pos (mul_pos usable.deep usable.dense) usable.capacity
  refine div_pos ?_ column
  norm_num [stefanBoltzmann]

theorem inverseCube_pos (t : ℝ) : 0 < l.inverseCube t := by
  have grown : 0 ≤ l.coefficient * max t 0 :=
    mul_nonneg usable.coefficient_pos.le (le_max_right _ _)
  exact add_pos_of_pos_of_nonneg (zpow_pos usable.hot _) grown

theorem temperatureAt_pos (t : ℝ) : 0 < l.temperatureAt t := by
  rw [temperatureAt_eq]
  exact Real.rpow_pos_of_pos (usable.inverseCube_pos t) _

/-- A slab cools from its initial temperature. -/
theorem fallsFrom_temperatureAt : FallsFrom l.initial l.temperatureAt where
  anti t t' later := by
    have grows : l.inverseCube t ≤ l.inverseCube t' := by
      have elapsed : max t 0 ≤ max t' 0 := max_le_max_right 0 later
      have growth := mul_le_mul_of_nonneg_left elapsed usable.coefficient_pos.le
      simpa [inverseCube] using growth
    rw [temperatureAt_eq, temperatureAt_eq]
    exact Real.rpow_le_rpow_of_nonpos (usable.inverseCube_pos t) grows (by norm_num)
  start t early := by
    rw [temperatureAt_eq, inverseCube, max_eq_right early, mul_zero, add_zero,
      ← Real.rpow_intCast, ← Real.rpow_mul usable.hot.le]
    norm_num

end IsUsable
end SlabLayer

/-! ## The linear law -/

namespace LinearLayer

/-- The parameters of a linear law that is accepted. The floor may be zero. -/
structure IsUsable (l : LinearLayer ℝ) : Prop where
  floor : 0 ≤ l.floor
  drops : l.floor < l.initial
  deep : 0 < l.depth

namespace IsUsable
variable {l : LinearLayer ℝ} (usable : l.IsUsable)
include usable

theorem coolingTime_pos : 0 < l.coolingTime.seconds := by
  have hot : 0 < l.initial := usable.floor.trans_lt usable.drops
  have drop : 0 < l.initial - l.floor := sub_pos.mpr usable.drops
  have deep := usable.deep
  simp only [coolingTime, if_neg (not_le.mpr drop), Time.ofDays, Quantity.seconds,
    Quantity.kilometres]
  positivity

/-- The temperature over the cooling time. -/
theorem temperatureAt_eq (t : ℝ) : l.temperatureAt t =
    max (l.initial - (l.initial - l.floor) / l.coolingTime.seconds * max t 0) l.floor := by
  simp only [temperatureAt, slope, if_pos usable.coolingTime_pos, fmax_real]

/-- A linear law cools from its initial temperature. -/
theorem fallsFrom_temperatureAt : FallsFrom l.initial l.temperatureAt where
  anti t t' later := by
    have slope : 0 ≤ (l.initial - l.floor) / l.coolingTime.seconds :=
      div_nonneg (sub_nonneg.mpr usable.drops.le) usable.coolingTime_pos.le
    rw [usable.temperatureAt_eq, usable.temperatureAt_eq]
    gcongr
  start t early := by
    rw [usable.temperatureAt_eq, max_eq_right early, mul_zero, sub_zero,
      max_eq_left usable.drops.le]

/-- The floor is reached with the cooling time. -/
theorem temperatureAt_eq_floor_iff (t : ℝ) :
    l.temperatureAt t = l.floor ↔ l.coolingTime.seconds ≤ t := by
  have time := usable.coolingTime_pos
  have drop : 0 < l.initial - l.floor := sub_pos.mpr usable.drops
  rw [usable.temperatureAt_eq, max_eq_right_iff, sub_le_comm, div_mul_eq_mul_div, le_div_iff₀ time,
    mul_le_mul_iff_right₀ drop, le_max_iff, or_iff_left (not_le.mpr time)]

theorem floor_le (t : ℝ) : l.floor ≤ l.temperatureAt t := by
  rw [usable.temperatureAt_eq]
  exact le_max_right _ _

end IsUsable
end LinearLayer

/-! ## Tables -/

theorem TemperatureTable.isTable_knots {t : TemperatureTable ℝ} (nonempty : t.rows ≠ [])
    (ascending : Table.descends (t.rows.map (·.time)) = false) : Table.IsTable t.knots :=
  Table.isTable_of_descends (by simpa [knots] using nonempty)
    (by simpa [knots, Function.comp_def] using ascending)

/-- Between positive temperatures a table is positive, and so it is beyond its ends. -/
theorem TemperatureTable.interpolate_pos {t : TemperatureTable ℝ} (nonempty : t.rows ≠ [])
    (positive : ∀ r ∈ t.rows, 0 < r.temperature)
    (ascending : Table.descends (t.rows.map (·.time)) = false) (x : ℝ) :
    0 < Table.interpolate t.knots x := by
  have table : Table.IsTable t.knots := isTable_knots nonempty ascending
  refine table.isInterpolant_interpolate.mem_of_knots table Set.ordConnected_Ioi ?_ x
  intro k mem
  obtain ⟨r, hr, rfl⟩ := List.mem_map.mp mem
  exact positive r hr

/-! ## Histories -/

namespace SurfaceHistory

/-- The time lies outside a table that says nothing beyond its ends. -/
def IsSilent (h : SurfaceHistory ℝ) (t first last : ℝ) : Prop :=
  ∃ rows, h = .table { rows, extrapolation := .fail } ∧
    rows.head?.map (·.time) = some first ∧ rows.getLast?.map (·.time) = some last ∧
    (t < first ∨ last < t)

/-- The surface has cooled down to a floor of zero kelvin. -/
def IsSpent (h : SurfaceHistory ℝ) (t : ℝ) : Prop :=
  ∃ l, h = .linear l ∧ l.floor = 0 ∧ l.coolingTime.seconds ≤ t

theorem IsSilent.unique {h : SurfaceHistory ℝ} {t a b a' b' : ℝ} (silent : h.IsSilent t a b)
    (silent' : h.IsSilent t a' b') : a = a' ∧ b = b' := by
  obtain ⟨rows, rfl, first, last, _⟩ := silent
  obtain ⟨rows', same, first', last', _⟩ := silent'
  cases same
  exact ⟨Option.some.inj (first.symm.trans first'), Option.some.inj (last.symm.trans last')⟩

/-- A table is never spent. -/
theorem IsSilent.not_isSpent {h : SurfaceHistory ℝ} {t a b : ℝ} (silent : h.IsSilent t a b) :
    ¬ h.IsSpent t := by
  rintro ⟨l, linear, _⟩
  obtain ⟨rows, table, _⟩ := silent
  rw [linear] at table
  cases table

/-- What an accepted history makes of a time: nothing outside a silent table, zero once the surface
is spent, and a positive temperature otherwise. -/
inductive Answer (h : SurfaceHistory ℝ) (t : ℝ) :
    Except (TemperatureError ℝ) (Temperature ℝ) → Prop where
  | silent (first last : ℝ) (beyond : h.IsSilent t first last) :
      Answer h t (.error (.outOfRange t first last))
  | spent (cooled : h.IsSpent t) : Answer h t (.ok 0)
  | usable (surface : Temperature ℝ) (positive : 0 < surface.kelvin)
      (spoken : ∀ first last, ¬ h.IsSilent t first last) (lasting : ¬ h.IsSpent t) :
      Answer h t (.ok surface)

theorem answer_table {t : TemperatureTable ℝ} (nonempty : t.rows ≠ [])
    (positive : ∀ r ∈ t.rows, 0 < r.temperature)
    (ascending : Table.descends (t.rows.map (·.time)) = false) (time : Time ℝ) :
    (table t).Answer time.seconds ((table t).temperatureAt time) := by
  have pos := TemperatureTable.interpolate_pos nonempty positive ascending time.seconds
  obtain ⟨first, head⟩ : ∃ r, t.rows.head? = some r := ⟨_, List.head?_eq_some_head nonempty⟩
  obtain ⟨last, tail⟩ : ∃ r, t.rows.getLast? = some r :=
    ⟨_, List.getLast?_eq_some_getLast nonempty⟩
  by_cases beyond : t.extrapolation = .fail ∧ (time.seconds < first.time ∨ last.time < time.seconds)
  · have answer : (table t).temperatureAt time =
        .error (.outOfRange time.seconds first.time last.time) := by
      simp [temperatureAt, TemperatureTable.temperatureAt, head, tail, beyond, Functor.map,
        Except.map]
    rw [answer]
    refine .silent _ _ ⟨t.rows, ?_, by simp [head], by simp [tail], beyond.2⟩
    rw [← beyond.1]
  · have answer : (table t).temperatureAt time = .ok ⟨Table.interpolate t.knots time.seconds⟩ := by
      simp [temperatureAt, TemperatureTable.temperatureAt, head, tail, beyond, Functor.map,
        Except.map]
    rw [answer]
    refine .usable _ pos ?_ (by simp [IsSpent])
    rintro a b ⟨rows, same, first', last', outside⟩
    cases same
    obtain rfl : first.time = a := by simpa [head] using first'
    obtain rfl : last.time = b := by simpa [tail] using last'
    exact beyond ⟨rfl, outside⟩

theorem initial_pos {h : SurfaceHistory ℝ} (valid : h.IsValid) :
    ∃ initial, h.initial? = some initial ∧ 0 < initial := by
  obtain ⟨initial, declared, low, _⟩ := valid.1
  exact ⟨initial, declared, lt_of_lt_of_le (by norm_num [minInitial]) low⟩

theorem isUsable_of_slab {l : SlabLayer ℝ} (valid : (slab l).IsValid) : l.IsUsable := by
  obtain ⟨initial, declared, hot⟩ := initial_pos valid
  obtain rfl : l.initial = initial := by simpa [initial?] using declared
  have parameters : ¬ (l.depth ≤ 0 ∨ l.density ≤ 0 ∨ l.heatCapacity ≤ 0) := valid.2
  simp only [not_or, not_le] at parameters
  obtain ⟨deep, dense, capacity⟩ := parameters
  exact { hot, deep, dense, capacity }

theorem isUsable_of_linear {l : LinearLayer ℝ} (valid : (linear l).IsValid) : l.IsUsable := by
  have parameters : ¬ (l.floor < 0 ∨ l.initial ≤ l.floor ∨ l.depth ≤ 0) := valid.2
  simp only [not_or, not_le, not_lt] at parameters
  obtain ⟨floor, drops, deep⟩ := parameters
  exact { floor, drops, deep }

theorem answer_linear {l : LinearLayer ℝ} (usable : l.IsUsable) (time : Time ℝ) :
    (linear l).Answer time.seconds ((linear l).temperatureAt time) := by
  have ends := usable.temperatureAt_eq_floor_iff time.seconds
  by_cases cooled : l.floor = 0 ∧ l.coolingTime.seconds ≤ time.seconds
  · have answer : (linear l).temperatureAt time = .ok 0 := by
      rw [temperatureAt, ends.mpr cooled.2, cooled.1]
      rfl
    rw [answer]
    exact .spent ⟨l, rfl, cooled⟩
  · have positive : 0 < l.temperatureAt time.seconds := by
      rcases usable.floor.lt_or_eq with above | bare
      · exact above.trans_le (usable.floor_le _)
      · refine (usable.floor.trans (usable.floor_le _)).lt_of_ne fun zero => cooled ⟨bare.symm, ?_⟩
        exact ends.mp (zero.symm.trans bare)
    refine .usable _ positive (by simp [IsSilent]) ?_
    rintro ⟨l, same, spent⟩
    cases same
    exact cooled spent

/-- Every accepted history at every time. -/
theorem answer_of_isValid {h : SurfaceHistory ℝ} (valid : h.IsValid) (time : Time ℝ) :
    h.Answer time.seconds (h.temperatureAt time) := by
  cases h with
  | constant kelvin =>
    obtain ⟨initial, declared, hot⟩ := initial_pos valid
    obtain rfl : kelvin = initial := by simpa [initial?] using declared
    exact .usable _ hot (by simp [IsSilent]) (by simp [IsSpent])
  | table t =>
    obtain ⟨nonempty, rows, ascending⟩ := valid.2
    exact answer_table nonempty (fun r hr => not_le.mp (rows r hr).2.2) ascending time
  | slab l =>
    have positive := (isUsable_of_slab valid).temperatureAt_pos time.seconds
    have answer : (slab l).temperatureAt time = .ok ⟨l.temperatureAt time.seconds⟩ := by
      simp [temperatureAt]
    rw [answer]
    exact .usable _ positive (by simp [IsSilent]) (by simp [IsSpent])
  | linear l => exact answer_linear (isUsable_of_linear valid) time

/-- A history that is no table falls from its initial temperature. -/
theorem exists_fallsFrom {h : SurfaceHistory ℝ} (valid : h.IsValid) (law : h.source = .analytic) :
    ∃ initial f, h.initial? = some initial ∧ FallsFrom initial f ∧
      ∀ time, h.temperatureAt time = .ok ⟨f time.seconds⟩ := by
  cases h with
  | constant kelvin =>
    exact ⟨kelvin, fun _ => kelvin, rfl, { anti := antitone_const, start := fun _ _ => rfl },
      fun _ => rfl⟩
  | table t => cases law
  | slab l =>
    exact ⟨l.initial, l.temperatureAt, rfl, (isUsable_of_slab valid).fallsFrom_temperatureAt,
      fun time => by simp [temperatureAt]⟩
  | linear l =>
    exact ⟨l.initial, l.temperatureAt, rfl, (isUsable_of_linear valid).fallsFrom_temperatureAt,
      fun _ => rfl⟩

/-! ## Runs -/

/-- Why there is no usable temperature at a time. -/
inductive Fails (h : SurfaceHistory ℝ) (t : ℝ) : TemperatureError ℝ → Prop where
  | silent (first last : ℝ) (beyond : h.IsSilent t first last) :
      Fails h t (.outOfRange t first last)
  | spent (cooled : h.IsSpent t) : Fails h t (.nonFinite t)

end SurfaceHistory

/-- A positive temperature of the history is the one that a step uses. -/
theorem RunConfig.surfaceAt_of_temperatureAt {c : RunConfig ℝ} {time : Time ℝ}
    {surface : Temperature ℝ} (given : c.temperature.history.temperatureAt time = .ok surface)
    (positive : 0 < surface.kelvin) : c.surfaceAt time = .ok surface := by
  rw [surfaceAt, given]
  simp [Except.mapError, bind, Except.bind, positive, pure, Except.pure]

/-- A step of a run has no surface temperature just when its history fails. -/
theorem RunConfig.surfaceAt_eq_temperature_iff {c : RunConfig ℝ}
    (valid : c.temperature.history.IsValid) {time : Time ℝ} {e : TemperatureError ℝ} :
    c.surfaceAt time = .error (.temperature e) ↔ c.temperature.history.Fails time.seconds e := by
  have answer := SurfaceHistory.answer_of_isValid valid time
  generalize given : c.temperature.history.temperatureAt time = outcome at answer
  cases answer with
  | silent first last beyond =>
    have missing : c.surfaceAt time =
        .error (.temperature (.outOfRange time.seconds first last)) := by
      rw [surfaceAt, given]
      rfl
    rw [missing]
    constructor
    · intro same
      obtain rfl : _ = e := by simpa using same
      exact .silent _ _ beyond
    · intro fails
      cases fails with
      | silent a b beyond' =>
        obtain ⟨rfl, rfl⟩ := beyond.unique beyond'
        rfl
      | spent cooled => exact absurd cooled beyond.not_isSpent
  | spent cooled =>
    have missing : c.surfaceAt time = .error (.temperature (.nonFinite time.seconds)) := by
      rw [surfaceAt, given]
      simp [Except.mapError, bind, Except.bind, throw, throwThe, MonadExceptOf.throw]
    rw [missing]
    constructor
    · intro same
      obtain rfl : _ = e := by simpa using same
      exact .spent cooled
    · intro fails
      cases fails with
      | silent a b beyond => exact absurd cooled beyond.not_isSpent
      | spent _ => rfl
  | usable surface positive spoken lasting =>
    rw [surfaceAt_of_temperatureAt given positive]
    refine iff_of_false (by simp) fun fails => ?_
    cases fails with
    | silent a b beyond => exact spoken a b beyond
    | spent cooled => exact lasting cooled

namespace SurfaceHistory

/-- What can be relied on. The history gives a positive temperature at every time, except outside a
silent table and once the surface is spent; unless it is a table, it falls from its initial
temperature and never exceeds it; and a call on a run with it fails for want of a temperature in the
two exceptions only. -/
structure IsReliable (h : SurfaceHistory ℝ) : Prop where
  answer : ∀ time : Time ℝ, h.Answer time.seconds (h.temperatureAt time)
  falls : h.source = .analytic → ∃ initial f, h.initial? = some initial ∧
    FallsFrom initial f ∧ (∀ t, f t ≤ initial) ∧ ∀ time, h.temperatureAt time = .ok ⟨f time.seconds⟩
  run : ∀ (c : RunConfig ℝ) (σ : Type) [DiagnosticsSink ℝ σ] (sink : σ) (i : Integrator ℝ σ),
    c.temperature.history = h → Integrator.new c sink = .ok i → ∀ n step e,
      (i.afterCalls n).stepOnce.result = .error (.step step (.temperature e)) ↔
        (i.afterCalls n).lifecycle.IsLive ∧ step = (i.afterCalls n).steps ∧
          h.Fails (i.afterCalls n).state.time.seconds e

/-- **Accepted histories last until they are spent.** Every history that passes its checks gives a
positive temperature at every time, and no step of a run fails for want of one, unless the history
is a table that says nothing about the time, or a linear law whose floor of zero has been
reached. -/
theorem reliable_of_validate {h : SurfaceHistory ℝ} (accepted : h.validate = .ok ()) :
    h.IsReliable := by
  have valid := validate_eq_ok_iff.mp accepted
  constructor
  case answer => exact answer_of_isValid valid
  case falls =>
    intro law
    obtain ⟨initial, f, declared, falls, given⟩ := exists_fallsFrom valid law
    exact ⟨initial, f, declared, falls, falls.le, given⟩
  case run =>
    rintro c σ _ sink i rfl made n step e
    obtain ⟨p, isRun, _⟩ := Integrator.isRunOf_new made
    have config := (Integrator.isRunOf_afterCalls isRun n).config
    rw [Integrator.stepOnce_eq_temperature_iff, config,
      RunConfig.surfaceAt_eq_temperature_iff valid]

/-- A bare metre: a layer of one metre that cools from 4000 K to zero kelvin is accepted, is spent
within 1000 seconds, and fails from then on. -/
theorem reliable_of_validate_metre :
    let metre : SurfaceHistory ℝ := .linear { initial := 4000, floor := 0, depth := 1 }
    metre.validate = .ok () ∧ metre.IsReliable ∧ metre.IsSpent 1000 ∧
      metre.temperatureAt ⟨1000⟩ = .ok 0 ∧ metre.Fails 1000 (.nonFinite 1000) := by
  intro metre
  have accepted : metre.validate = .ok () := by
    refine validate_eq_ok_iff.mpr ⟨⟨4000, rfl, ?_⟩, ?_⟩
    · norm_num [minInitial, maxInitial]
    · norm_num [metre]
  have reliable := reliable_of_validate accepted
  have spent : metre.IsSpent 1000 := by
    refine ⟨_, rfl, rfl, ?_⟩
    norm_num [LinearLayer.coolingTime, Time.ofDays, Quantity.kilometres]
  refine ⟨accepted, reliable, spent, ?_, .spent spent⟩
  have answer := reliable.answer ⟨1000⟩
  generalize metre.temperatureAt ⟨1000⟩ = outcome at answer
  cases answer with
  | silent first last beyond => exact absurd spent beyond.not_isSpent
  | spent _ => rfl
  | usable surface positive spoken lasting => exact absurd spent lasting

end SurfaceHistory
end DebrisDisk
