import Mathlib
import DebrisDisk.Proofs.Exact.Cooling

/-!
# How long a surface cools

Each cooling law can be read in two directions: the temperature after a time, and the time to a
temperature. The two readings are computed apart, the slab's with a whole power in one direction and
a root in the other, and both are clamped at zero. In exact arithmetic they invert each other from
the start on. Up to the start the surface has its initial temperature, so a law falls strictly from
there and not before.

## Main definitions

* `SlabLayer.IsInverted`: temperatures and times of a slab answer each other.
* `LinearLayer.IsRamp`: a linear law falls along a line to its floor and rests there.

## Main results

* `SurfaceHistory.cooling_laws`: both hold of all parameters that are accepted.
* `SlabLayer.not_strictAnti_basalt`: a slab does not fall before the start.
-/

namespace DebrisDisk
open Scalar

/-! ## Inverse cubes -/

/-- The power that a slab takes of its temperature and the root that it takes of the growth undo
each other. -/
theorem rpow_neg_third_of_inverseCube {x : ℝ} (positive : 0 < x) :
    (x ^ (-3 : ℤ)) ^ (-1 / 3 : ℝ) = x := by
  rw [← Real.rpow_intCast, ← Real.rpow_mul positive.le]
  norm_num

theorem inverseCube_of_rpow_neg_third {x : ℝ} (positive : 0 < x) :
    (x ^ (-1 / 3 : ℝ)) ^ (-3 : ℤ) = x := by
  rw [← Real.rpow_intCast, ← Real.rpow_mul positive.le]
  norm_num

/-- A colder surface has a greater inverse cube. -/
theorem inverseCube_le_inverseCube {x y : ℝ} (positive : 0 < x) (le : x ≤ y) :
    y ^ (-3 : ℤ) ≤ x ^ (-3 : ℤ) := by
  have cubes : x ^ (3 : ℤ) ≤ y ^ (3 : ℤ) := by exact_mod_cast pow_le_pow_left₀ positive.le le 3
  rw [zpow_neg, zpow_neg]
  exact inv_anti₀ (zpow_pos positive 3) cubes

/-! ## The slab -/

namespace SlabLayer

/-- The time to a temperature, as the growth of the inverse cube over its rate. -/
theorem timeToReach_seconds (l : SlabLayer ℝ) (target : Temperature ℝ) :
    (l.timeToReach target).seconds =
      max ((target.kelvin ^ (-3 : ℤ) - l.initial ^ (-3 : ℤ)) / l.coefficient) 0 := by
  simp only [timeToReach, Quantity.powi, powi_real, fmax_real]

/-- Temperatures and times of a slab answer each other. -/
structure IsInverted (l : SlabLayer ℝ) : Prop where
  given : ∀ t : Time ℝ, (SurfaceHistory.slab l).temperatureAt t = .ok ⟨l.temperatureAt t.seconds⟩
  /-- After the time to a temperature the surface has it. -/
  reached : ∀ T : Temperature ℝ, 0 < T.kelvin → T.kelvin ≤ l.initial →
    l.temperatureAt (l.timeToReach T).seconds = T.kelvin
  /-- The time to the temperature of a time is that time. -/
  elapsed : ∀ t : Time ℝ, 0 ≤ t.seconds → l.timeToReach ⟨l.temperatureAt t.seconds⟩ = t
  /-- No time passes to a temperature that is not below the initial one. -/
  atOnce : ∀ T : Temperature ℝ, l.initial ≤ T.kelvin → l.timeToReach T = 0
  falls : StrictAntiOn l.temperatureAt (Set.Ici 0)
  before : ∀ t ≤ 0, l.temperatureAt t = l.initial

namespace IsUsable
variable {l : SlabLayer ℝ} (usable : l.IsUsable)
include usable

/-- The inverse cube has grown from its initial value once the time to a temperature has passed. -/
theorem inverseCube_timeToReach {T : Temperature ℝ} (positive : 0 < T.kelvin)
    (colder : T.kelvin ≤ l.initial) :
    l.inverseCube (l.timeToReach T).seconds = T.kelvin ^ (-3 : ℤ) := by
  have rate := usable.coefficient_pos
  have growth : 0 ≤ T.kelvin ^ (-3 : ℤ) - l.initial ^ (-3 : ℤ) :=
    sub_nonneg.mpr (inverseCube_le_inverseCube positive colder)
  have time : (l.timeToReach T).seconds =
      (T.kelvin ^ (-3 : ℤ) - l.initial ^ (-3 : ℤ)) / l.coefficient := by
    rw [timeToReach_seconds]
    exact max_eq_left (div_nonneg growth rate.le)
  have passed : 0 ≤ (l.timeToReach T).seconds := by
    rw [time]
    exact div_nonneg growth rate.le
  rw [inverseCube, max_eq_left passed, time, mul_div_cancel₀ _ rate.ne']
  ring

/-- The temperature shows how far the inverse cube has grown. -/
theorem temperatureAt_inverseCube (t : ℝ) :
    l.temperatureAt t ^ (-3 : ℤ) = l.inverseCube t := by
  rw [temperatureAt_eq]
  exact inverseCube_of_rpow_neg_third (usable.inverseCube_pos t)

theorem timeToReach_temperatureAt {t : Time ℝ} (started : 0 ≤ t.seconds) :
    l.timeToReach ⟨l.temperatureAt t.seconds⟩ = t := by
  have growth : l.temperatureAt t.seconds ^ (-3 : ℤ) - l.initial ^ (-3 : ℤ) =
      l.coefficient * t.seconds := by
    rw [usable.temperatureAt_inverseCube, inverseCube, max_eq_left started]
    ring
  ext
  change (l.timeToReach ⟨l.temperatureAt t.seconds⟩).seconds = t.seconds
  rw [timeToReach_seconds, growth, mul_div_cancel_left₀ _ usable.coefficient_pos.ne']
  exact max_eq_left started

theorem timeToReach_of_le {T : Temperature ℝ} (warm : l.initial ≤ T.kelvin) :
    l.timeToReach T = 0 := by
  have shrinks : T.kelvin ^ (-3 : ℤ) - l.initial ^ (-3 : ℤ) ≤ 0 :=
    sub_nonpos.mpr (inverseCube_le_inverseCube usable.hot warm)
  ext
  change (l.timeToReach T).seconds = 0
  rw [timeToReach_seconds]
  exact max_eq_right (div_nonpos_of_nonpos_of_nonneg shrinks usable.coefficient_pos.le)

/-- From the start the inverse cube grows strictly, and so the temperature falls strictly. -/
theorem strictAntiOn_temperatureAt : StrictAntiOn l.temperatureAt (Set.Ici 0) := by
  intro t started t' started' later
  have grows : l.inverseCube t < l.inverseCube t' := by
    rw [inverseCube, inverseCube, max_eq_left started, max_eq_left started']
    have growth := mul_lt_mul_of_pos_left later usable.coefficient_pos
    linarith
  rw [temperatureAt_eq, temperatureAt_eq]
  exact Real.rpow_lt_rpow_of_neg (usable.inverseCube_pos t) grows (by norm_num)

theorem isInverted : l.IsInverted := by
  constructor
  case given =>
    intro t
    simp [SurfaceHistory.temperatureAt]
  case reached =>
    intro T positive colder
    rw [temperatureAt_eq, usable.inverseCube_timeToReach positive colder]
    exact rpow_neg_third_of_inverseCube positive
  case elapsed =>
    intro t started
    exact usable.timeToReach_temperatureAt started
  case atOnce =>
    intro T warm
    exact usable.timeToReach_of_le warm
  case falls => exact usable.strictAntiOn_temperatureAt
  case before => exact usable.fallsFrom_temperatureAt.start

end IsUsable

/-- A slab with the parameters that are taken when none are given, from 4000 K. -/
noncomputable def basalt : SlabLayer ℝ where
  initial := 4000
  depth := 1e5
  density := 3000
  heatCapacity := 1000

theorem isUsable_basalt : basalt.IsUsable where
  hot := by norm_num [basalt]
  deep := by norm_num [basalt]
  dense := by norm_num [basalt]
  capacity := by norm_num [basalt]

/-- The slab of 4000 K has 4000 K ten million seconds before the start, and at the start, so its
temperature does not fall strictly over all times. -/
theorem not_strictAnti_basalt :
    basalt.IsUsable ∧ (SurfaceHistory.slab basalt).temperatureAt ⟨-1e7⟩ = .ok ⟨4000⟩ ∧
      (SurfaceHistory.slab basalt).temperatureAt 0 = .ok ⟨4000⟩ ∧
      ¬ StrictAnti basalt.temperatureAt := by
  have inverted := isUsable_basalt.isInverted
  have early : basalt.temperatureAt (-1e7) = 4000 := inverted.before _ (by norm_num)
  have start : basalt.temperatureAt 0 = 4000 := inverted.before 0 le_rfl
  refine ⟨isUsable_basalt, ?_, ?_, ?_⟩
  · rw [inverted.given]
    exact congrArg _ (Quantity.ext early)
  · rw [inverted.given]
    exact congrArg _ (Quantity.ext start)
  · intro falls
    have fallen : basalt.temperatureAt 0 < basalt.temperatureAt (-1e7) := falls (by norm_num)
    rw [early, start] at fallen
    exact lt_irrefl _ fallen

end SlabLayer

/-! ## The linear law -/

namespace LinearLayer

/-- A linear law falls along a line to its floor, and rests there. -/
structure IsRamp (l : LinearLayer ℝ) : Prop where
  given : ∀ t : Time ℝ,
    (SurfaceHistory.linear l).temperatureAt t = .ok ⟨l.temperatureAt t.seconds⟩
  lasts : 0 < l.coolingTime.seconds
  start : l.temperatureAt 0 = l.initial
  /-- While it cools, the drop is in proportion to the time. -/
  line : ∀ t ∈ Set.Icc 0 l.coolingTime.seconds,
    l.temperatureAt t = l.initial - (l.initial - l.floor) * (t / l.coolingTime.seconds)
  falls : StrictAntiOn l.temperatureAt (Set.Icc 0 l.coolingTime.seconds)
  rests : ∀ t, l.coolingTime.seconds ≤ t → l.temperatureAt t = l.floor

namespace IsUsable
variable {l : LinearLayer ℝ} (usable : l.IsUsable)
include usable

/-- Before the floor is reached the clamps do nothing. -/
theorem temperatureAt_of_mem {t : ℝ} (mem : t ∈ Set.Icc 0 l.coolingTime.seconds) :
    l.temperatureAt t = l.initial - (l.initial - l.floor) * (t / l.coolingTime.seconds) := by
  have share : t / l.coolingTime.seconds ≤ 1 := (div_le_one usable.coolingTime_pos).mpr mem.2
  have drop : (l.initial - l.floor) * (t / l.coolingTime.seconds) ≤ l.initial - l.floor :=
    mul_le_of_le_one_right (sub_nonneg.mpr usable.drops.le) share
  rw [usable.temperatureAt_eq, max_eq_left mem.1, div_mul_eq_mul_div, ← mul_div_assoc']
  exact max_eq_left (by linarith)

theorem strictAntiOn_temperatureAt :
    StrictAntiOn l.temperatureAt (Set.Icc 0 l.coolingTime.seconds) := by
  intro t mem t' mem' later
  have share : t / l.coolingTime.seconds < t' / l.coolingTime.seconds :=
    div_lt_div_of_pos_right later usable.coolingTime_pos
  have drop := mul_lt_mul_of_pos_left share (sub_pos.mpr usable.drops)
  rw [usable.temperatureAt_of_mem mem, usable.temperatureAt_of_mem mem']
  linarith

theorem isRamp : l.IsRamp := by
  constructor
  case given => exact fun _ => rfl
  case lasts => exact usable.coolingTime_pos
  case start => exact usable.fallsFrom_temperatureAt.start 0 le_rfl
  case line => exact fun _ mem => usable.temperatureAt_of_mem mem
  case falls => exact usable.strictAntiOn_temperatureAt
  case rests => exact fun t cooled => (usable.temperatureAt_eq_floor_iff t).mpr cooled

end IsUsable
end LinearLayer

/-! ## Main result -/

/-- **The cooling laws and their times.** A slab of positive temperature, depth, density and heat
capacity is read in both directions alike: it has a temperature after the time to it, it takes that
time to the temperature of a time, it takes none to a temperature that is not below the initial one,
and from the start its temperature falls strictly. A linear law of positive depth that ends below
its initial temperature falls strictly and along a line, from its initial temperature at the start
to its floor at the cooling time, and keeps the floor. -/
theorem SurfaceHistory.cooling_laws :
    (∀ l : SlabLayer ℝ, l.IsUsable → l.IsInverted) ∧
      ∀ l : LinearLayer ℝ, l.IsUsable → l.IsRamp :=
  ⟨fun _ usable => usable.isInverted, fun _ usable => usable.isRamp⟩

/-- The slab of 4000 K has 2000 K after the time to 2000 K, which is positive. A layer of 100 km
that cools from 4000 K to 1000 K has 2500 K half-way through its cooling time. -/
theorem SurfaceHistory.cooling_laws_basalt :
    let layer : LinearLayer ℝ := { initial := 4000, floor := 1000, depth := 1e5 }
    SlabLayer.basalt.IsUsable ∧ layer.IsUsable ∧
      SlabLayer.basalt.temperatureAt (SlabLayer.basalt.timeToReach ⟨2000⟩).seconds = 2000 ∧
      0 < (SlabLayer.basalt.timeToReach ⟨2000⟩).seconds ∧
      layer.temperatureAt (layer.coolingTime.seconds / 2) = 2500 := by
  intro layer
  have usable : layer.IsUsable := {
    floor := by norm_num [layer]
    drops := by norm_num [layer]
    deep := by norm_num [layer] }
  have slab := cooling_laws.1 _ SlabLayer.isUsable_basalt
  have ramp := cooling_laws.2 _ usable
  have cooled : SlabLayer.basalt.temperatureAt (SlabLayer.basalt.timeToReach ⟨2000⟩).seconds =
      2000 := slab.reached ⟨2000⟩ (by norm_num) (by norm_num [SlabLayer.basalt])
  refine ⟨SlabLayer.isUsable_basalt, usable, cooled, ?_, ?_⟩
  · by_contra early
    have warm := slab.before _ (not_lt.mp early)
    rw [cooled] at warm
    norm_num [SlabLayer.basalt] at warm
  · have lasts := ramp.lasts
    rw [ramp.line _ ⟨by linarith, by linarith⟩]
    field_simp
    norm_num [layer]

end DebrisDisk
