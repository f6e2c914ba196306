import Mathlib
import DebrisDisk.Proofs.Exact.Reals

/-!
# The surface energy limit

The finer a collision breaks its target, the smaller the smallest fragment. The balance of kinetic
and surface energy gives the fineness, the surface per volume that the fragments may have, and for
each slope between 3 and 4 the size of the smallest fragment is a negative power of it. So whatever
makes a collision more energetic lowers the limit, and whatever makes surface more expensive raises
it. The cap at the largest fragment turns none of this round.

The floor is the greater of the limit and the configured minimum. Grains on more eccentric orbits
meet at higher speed, so the floor falls with the eccentricity, as far as the configured minimum
lets it.

## Main definitions

* `IsBalanced`: the inputs for which the balance has a solution.
* `fineness`, `fragmentSize`: the two halves of the closed form.
* `IsEnergyLimit`, `SizeFloor.IsResolved`: what is asked of the limit and of the floor.

## Main results

* `surfaceEnergyFloor_le_of_finer`: a collision that breaks finer has the lower limit.
* `SizeFloor.follows_energy_balance`: every limit, inside the domain and outside, and every floor.
-/

namespace DebrisDisk
open Scalar

/-! ## The balance -/

/-- The balance has a solution. -/
structure IsBalanced (gamma eta slope density speed target largest : ℝ) : Prop where
  slope : slope ∈ Set.Ioo 3 4
  gamma : 0 < gamma
  eta : 0 < eta
  density : 0 < density
  speed : 0 < speed
  target : 0 < target
  largest : 0 < largest

/-- The surface per volume that a collision pays for: that of the target, and what the kinetic
energy adds. -/
noncomputable def fineness (gamma eta density speed target : ℝ) : ℝ :=
  1 / target + eta * density * speed * speed / (24.0 * gamma)

/-- The smallest fragment size for some fineness, before it is capped. -/
noncomputable def fragmentSize (slope largest fine : ℝ) : ℝ :=
  ((slope - 3.0) / (4.0 - slope) * fine * largest ^ (4.0 - slope)) ^ (1 / (3.0 - slope))

section Balance
variable {gamma gamma' eta eta' slope density density' speed speed' target target' largest : ℝ}

theorem fineness_pos (gammaPos : 0 < gamma) (etaPos : 0 < eta) (densityPos : 0 < density)
    (targetPos : 0 < target) (speed : ℝ) : 0 < fineness gamma eta density speed target := by
  have kinetic : 0 ≤ eta * density * (speed * speed) :=
    mul_nonneg (mul_pos etaPos densityPos).le (mul_self_nonneg speed)
  rw [fineness, mul_assoc (eta * density)]
  positivity

/-- Cheaper surface, more of the energy, denser and faster grains and a smaller target make the
fragments finer. -/
theorem fineness_mono (gammaPos : 0 < gamma') (etaPos : 0 < eta) (densityPos : 0 < density)
    (speedPos : 0 < speed) (targetPos : 0 < target') (cheaper : gamma' ≤ gamma) (more : eta ≤ eta')
    (denser : density ≤ density') (faster : speed ≤ speed') (smaller : target' ≤ target) :
    fineness gamma eta density speed target ≤ fineness gamma' eta' density' speed' target' := by
  have share := etaPos.trans_le more
  have mass := densityPos.trans_le denser
  have swift := speedPos.trans_le faster
  rw [fineness, fineness]
  gcongr

theorem fragmentSize_eq (slope largest fine : ℝ) : fragmentSize slope largest fine =
    ((slope - 3) / (4 - slope) * fine * largest ^ (4 - slope)) ^ (1 / (3 - slope)) := by
  norm_num [fragmentSize]

/-- The base of the power is positive. -/
theorem balance_pos (inside : slope ∈ Set.Ioo 3 4) (largestPos : 0 < largest) {fine : ℝ}
    (finePos : 0 < fine) : 0 < (slope - 3) / (4 - slope) * fine * largest ^ (4 - slope) := by
  have above : 0 < slope - 3 := sub_pos.mpr inside.1
  have below : 0 < 4 - slope := sub_pos.mpr inside.2
  positivity

theorem fragmentSize_pos (inside : slope ∈ Set.Ioo 3 4) (largestPos : 0 < largest) {fine : ℝ}
    (finePos : 0 < fine) : 0 < fragmentSize slope largest fine := by
  rw [fragmentSize_eq]
  exact Real.rpow_pos_of_pos (balance_pos inside largestPos finePos) _

/-- Finer fragments are smaller: the exponent is negative for every slope between 3 and 4. -/
theorem fragmentSize_anti (inside : slope ∈ Set.Ioo 3 4) (largestPos : 0 < largest) :
    AntitoneOn (fragmentSize slope largest) (Set.Ioi 0) := by
  intro fine finePos fine' _ finer
  have exponent : 1 / (3 - slope) ≤ 0 :=
    div_nonpos_of_nonneg_of_nonpos zero_le_one (sub_nonpos.mpr inside.1.le)
  have above : 0 < slope - 3 := sub_pos.mpr inside.1
  have below : 0 < 4 - slope := sub_pos.mpr inside.2
  rw [fragmentSize_eq, fragmentSize_eq]
  refine Real.rpow_le_rpow_of_nonpos (balance_pos inside largestPos finePos) ?_ exponent
  gcongr

/-- For the slope of a steady cascade the power is an inverse square. -/
theorem fragmentSize_of_cascade (largestPos : 0 < largest) (fine : ℝ) :
    fragmentSize (7 / 2) largest fine = 1 / (fine ^ 2 * largest) := by
  have root : largest ^ (4 - 7 / 2 : ℝ) = Real.sqrt largest := by
    rw [Real.sqrt_eq_rpow]
    norm_num
  have exponent : (1 / (3 - 7 / 2) : ℝ) = -2 := by norm_num
  have share : ((7 / 2 - 3) / (4 - 7 / 2) : ℝ) = 1 := by norm_num
  rw [fragmentSize_eq, root, exponent, share, one_mul, Real.rpow_neg_ofNat, zpow_neg, zpow_ofNat,
    mul_pow, Real.sq_sqrt largestPos.le, one_div]

/-- In exact arithmetic the balance has a solution just where it is asked for one. -/
theorem isBalanced_iff : IsBalanced gamma eta slope density speed target largest ↔
    3.0 < slope ∧ slope < 4.0 ∧ 0 < gamma ∧ 0 < eta ∧ 0 < density ∧ 0 < speed ∧ 0 < target ∧
      0 < largest := by
  norm_num
  constructor
  · rintro ⟨slope, gamma, eta, density, speed, target, largest⟩
    exact ⟨slope.1, slope.2, gamma, eta, density, speed, target, largest⟩
  · rintro ⟨above, below, gamma, eta, density, speed, target, largest⟩
    exact ⟨⟨above, below⟩, gamma, eta, density, speed, target, largest⟩

/-! ## The limit -/

/-- The limit is the smallest fragment size, capped at the largest. -/
theorem surfaceEnergyFloor_of_isBalanced
    (h : IsBalanced gamma eta slope density speed target largest) :
    surfaceEnergyFloor gamma eta slope density speed target largest =
      min (fragmentSize slope largest (fineness gamma eta density speed target)) largest := by
  have fine := fineness_pos h.gamma h.eta h.density h.target speed
  have base := balance_pos h.slope h.largest fine
  have size := fragmentSize_pos h.slope h.largest fine
  have three : (3.0 : ℝ) = 3 := by norm_num
  have four : (4.0 : ℝ) = 4 := by norm_num
  have factor : 1 / target + eta * density * speed * speed / (24.0 * gamma) =
      fineness gamma eta density speed target := rfl
  rw [surfaceEnergyFloor, if_pos (isBalanced_iff.mp h)]
  simp only [factor, three, four, pow_real, ← fragmentSize_eq, isFinite_real, and_true, if_true]
  rw [if_pos base, clamp_real h.largest.le, max_eq_right (le_min size.le h.largest.le)]

theorem surfaceEnergyFloor_of_not_isBalanced
    (outside : ¬ IsBalanced gamma eta slope density speed target largest) :
    surfaceEnergyFloor gamma eta slope density speed target largest = 0 :=
  if_neg fun inside => outside (isBalanced_iff.mpr inside)

theorem surfaceEnergyFloor_mem (h : IsBalanced gamma eta slope density speed target largest) :
    surfaceEnergyFloor gamma eta slope density speed target largest ∈ Set.Ioc 0 largest := by
  have fine := fineness_pos h.gamma h.eta h.density h.target speed
  rw [surfaceEnergyFloor_of_isBalanced h]
  exact ⟨lt_min (fragmentSize_pos h.slope h.largest fine) h.largest, min_le_right _ _⟩

/-- A collision that breaks its target finer has the lower limit. -/
theorem surfaceEnergyFloor_le_of_finer
    (h : IsBalanced gamma eta slope density speed target largest)
    (h' : IsBalanced gamma' eta' slope density' speed' target' largest)
    (finer : fineness gamma eta density speed target ≤
      fineness gamma' eta' density' speed' target') :
    surfaceEnergyFloor gamma' eta' slope density' speed' target' largest ≤
      surfaceEnergyFloor gamma eta slope density speed target largest := by
  rw [surfaceEnergyFloor_of_isBalanced h, surfaceEnergyFloor_of_isBalanced h']
  exact min_le_min_right largest <| fragmentSize_anti h.slope h.largest
    (fineness_pos h.gamma h.eta h.density h.target speed)
    (fineness_pos h'.gamma h'.eta h'.density h'.target speed') finer

/-- How the limit depends on each input while the others stay. -/
structure IsEnergyLimit (gamma eta slope density speed target largest : ℝ) : Prop where
  range : surfaceEnergyFloor gamma eta slope density speed target largest ∈ Set.Ioc 0 largest
  faster : AntitoneOn
    (fun speed => surfaceEnergyFloor gamma eta slope density speed target largest) (Set.Ioi 0)
  /-- A greater share of the energy does not raise it. -/
  richer : AntitoneOn
    (fun eta => surfaceEnergyFloor gamma eta slope density speed target largest) (Set.Ioi 0)
  denser : AntitoneOn
    (fun density => surfaceEnergyFloor gamma eta slope density speed target largest) (Set.Ioi 0)
  /-- More expensive surface does not lower it. -/
  dearer : MonotoneOn
    (fun gamma => surfaceEnergyFloor gamma eta slope density speed target largest) (Set.Ioi 0)
  larger : MonotoneOn
    (fun target => surfaceEnergyFloor gamma eta slope density speed target largest) (Set.Ioi 0)

/-- Every limit inside the domain depends on its inputs in this way. -/
theorem IsBalanced.isEnergyLimit (h : IsBalanced gamma eta slope density speed target largest) :
    IsEnergyLimit gamma eta slope density speed target largest := by
  constructor
  case range => exact surfaceEnergyFloor_mem h
  case faster =>
    intro slow slowPos fast fastPos faster
    exact surfaceEnergyFloor_le_of_finer { h with speed := slowPos } { h with speed := fastPos } <|
      fineness_mono h.gamma h.eta h.density slowPos h.target le_rfl le_rfl le_rfl faster le_rfl
  case richer =>
    intro little littlePos much muchPos more
    exact surfaceEnergyFloor_le_of_finer { h with eta := littlePos } { h with eta := muchPos } <|
      fineness_mono h.gamma littlePos h.density h.speed h.target le_rfl more le_rfl le_rfl le_rfl
  case denser =>
    intro light lightPos dense densePos denser
    exact surfaceEnergyFloor_le_of_finer { h with density := lightPos }
      { h with density := densePos } <|
      fineness_mono h.gamma h.eta lightPos h.speed h.target le_rfl le_rfl denser le_rfl le_rfl
  case dearer =>
    intro cheap cheapPos dear dearPos dearer
    exact surfaceEnergyFloor_le_of_finer { h with gamma := dearPos } { h with gamma := cheapPos } <|
      fineness_mono cheapPos h.eta h.density h.speed h.target dearer le_rfl le_rfl le_rfl le_rfl
  case larger =>
    intro small smallPos great greatPos greater
    exact surfaceEnergyFloor_le_of_finer { h with target := greatPos }
      { h with target := smallPos } <|
      fineness_mono h.gamma h.eta h.density h.speed smallPos le_rfl le_rfl le_rfl le_rfl greater

end Balance

/-! ## Eccentric orbits -/

section Orbits
variable {kepler : Velocity ℝ} {e e' : ℝ}

theorem relativeVelocity_metresPerSecond (kepler : Velocity ℝ) (e : ℝ) :
    (relativeVelocity kepler e).metresPerSecond = kepler.metresPerSecond / Real.sqrt (1 - e) := rfl

/-- On a bound orbit grains meet at a positive speed just if they move at one. -/
theorem relativeVelocity_pos_iff (bound : e < 1) :
    0 < (relativeVelocity kepler e).metresPerSecond ↔ 0 < kepler.metresPerSecond := by
  rw [relativeVelocity_metresPerSecond]
  exact div_pos_iff_of_pos_right (Real.sqrt_pos.mpr (sub_pos.mpr bound))

/-- Grains meet faster on more eccentric orbits. -/
theorem relativeVelocity_mono (moving : 0 < kepler.metresPerSecond) (bound : e' < 1)
    (rounder : e ≤ e') : (relativeVelocity kepler e).metresPerSecond ≤
      (relativeVelocity kepler e').metresPerSecond := by
  rw [relativeVelocity_metresPerSecond, relativeVelocity_metresPerSecond]
  have root : 0 < Real.sqrt (1 - e') := Real.sqrt_pos.mpr (sub_pos.mpr bound)
  gcongr

/-- The limit does not rise with the eccentricity, inside its domain and outside. -/
theorem SurfaceEnergySettings.limit_anti (s : SurfaceEnergySettings ℝ) (density : ℝ)
    (kepler : Velocity ℝ) (top : Length ℝ) :
    AntitoneOn (fun e => ({ s with eccentricity := e } : SurfaceEnergySettings ℝ).limit density
      kepler top) (Set.Iio 1) := by
  intro e bound e' bound' rounder
  simp only [limit]
  split_ifs with enabled
  · set target := s.target.getD top.metres
    set largest := target * cbrt s.largestFragment
    by_cases balanced : IsBalanced s.gamma s.eta s.slope density
        (relativeVelocity kepler e).metresPerSecond target largest
    · -- both speeds lie in the domain, where the limit falls with the speed
      have moving := (relativeVelocity_pos_iff bound).mp balanced.speed
      exact balanced.isEnergyLimit.faster balanced.speed
        ((relativeVelocity_pos_iff bound').mpr moving)
        (relativeVelocity_mono moving bound' rounder)
    · -- the sign of the speed does not change, so both limits are zero
      have balanced' : ¬ IsBalanced s.gamma s.eta s.slope density
          (relativeVelocity kepler e').metresPerSecond target largest := by
        intro inside
        have moving := (relativeVelocity_pos_iff bound').mp inside.speed
        exact balanced { inside with speed := (relativeVelocity_pos_iff bound).mpr moving }
      exact (surfaceEnergyFloor_of_not_isBalanced balanced').trans_le
        (surfaceEnergyFloor_of_not_isBalanced balanced).ge
  · exact le_rfl

end Orbits

/-! ## The floor -/

namespace SizeFloor

/-- A floor is the greater of the configured minimum and the limit, and it knows which of them. -/
structure IsResolved (f : SizeFloor ℝ) (configured : Length ℝ) (limit : ℝ) : Prop where
  size : f.size.metres = max configured.metres limit
  source : f.source = .surfaceEnergy ↔ configured.metres < limit
  surfaceEnergySize : f.surfaceEnergySize.metres = limit

theorem isResolved_resolve (configured : Length ℝ) (s : SurfaceEnergySettings ℝ) (density : ℝ)
    (kepler : Velocity ℝ) (top : Length ℝ) :
    (resolve configured s density kepler top).IsResolved configured
      (s.limit density kepler top) := by
  simp only [resolve]
  split_ifs with above
  · exact ⟨(max_eq_right above.le).symm, iff_of_true rfl above, rfl⟩
  · exact ⟨(max_eq_left (not_lt.mp above)).symm, iff_of_false (by simp) above, rfl⟩

/-! ## Main result -/

/-- **The floor follows the energy balance.** For every slope between 3 and 4 and positive inputs
the limit is positive and at most the largest fragment; it does not rise with the speed, the share
of the energy and the density, and does not fall with the surface energy and the size of the target.
For all other inputs it is zero. Every floor is the greater of the configured minimum and the limit,
and names the limit as its source just if that is strictly greater; a limit that is switched off is
zero. Between circular and parabolic orbits no floor rises with the eccentricity. -/
theorem follows_energy_balance :
    (∀ gamma eta slope density speed target largest : ℝ,
      (IsBalanced gamma eta slope density speed target largest →
        IsEnergyLimit gamma eta slope density speed target largest) ∧
      (¬ IsBalanced gamma eta slope density speed target largest →
        surfaceEnergyFloor gamma eta slope density speed target largest = 0)) ∧
    ∀ (configured : Length ℝ) (s : SurfaceEnergySettings ℝ) (density : ℝ) (kepler : Velocity ℝ)
      (top : Length ℝ),
      (resolve configured s density kepler top).IsResolved configured
        (if s.enabled = true then
          surfaceEnergyFloor s.gamma s.eta s.slope density
            (relativeVelocity kepler s.eccentricity).metresPerSecond (s.target.getD top.metres)
            (s.target.getD top.metres * cbrt s.largestFragment)
        else 0) ∧
      AntitoneOn (fun e => (resolve configured { s with eccentricity := e } density kepler
        top).size.metres) (Set.Ico 0 1) := by
  refine ⟨fun _ _ _ _ _ _ _ =>
    ⟨IsBalanced.isEnergyLimit, surfaceEnergyFloor_of_not_isBalanced⟩, ?_⟩
  intro configured s density kepler top
  refine ⟨isResolved_resolve configured s density kepler top, ?_⟩
  intro e inside e' inside' rounder
  simp only [(isResolved_resolve configured _ density kepler top).size]
  exact max_le_max le_rfl (s.limit_anti density kepler top inside.2 inside'.2 rounder)

/-- Grains of a millimetre that meet on circular orbits and may stay whole. -/
noncomputable def millimetreGrains : SurfaceEnergySettings ℝ :=
  { SurfaceEnergySettings.default with
    enabled := true, eccentricity := 0, largestFragment := 1, target := some 1e-3 }

/-- At ten metres per second they break down to a fifth of a millimetre, which is far above the
configured minimum, and on eccentric orbits at least as far down. -/
theorem follows_energy_balance_millimetre :
    let floor (e : ℝ) := resolve ⟨1 / 10000000⟩ { millimetreGrains with eccentricity := e } 3000
      ⟨10⟩ ⟨3⟩
    IsBalanced 1 (1 / 10) (7 / 2) 3000 10 (1 / 1000) (1 / 1000) ∧
      IsEnergyLimit 1 (1 / 10) (7 / 2) 3000 10 (1 / 1000) (1 / 1000) ∧
      (floor 0).size.metres = 2 / 10125 ∧ (floor 0).source = .surfaceEnergy ∧
      (floor (3 / 4)).size.metres ≤ (floor 0).size.metres := by
  intro floor
  have balanced : IsBalanced 1 (1 / 10) (7 / 2) 3000 10 (1 / 1000) (1 / 1000) := by
    constructor <;> norm_num
  have value : surfaceEnergyFloor 1 (1 / 10) (7 / 2) 3000 10 (1 / 1000) (1 / 1000)
      = (2 / 10125 : ℝ) := by
    rw [surfaceEnergyFloor_of_isBalanced balanced, fragmentSize_of_cascade (by norm_num)]
    norm_num [fineness]
  have speed : (relativeVelocity (⟨10⟩ : Velocity ℝ) 0).metresPerSecond = 10 := by
    simp [relativeVelocity_metresPerSecond]
  have largest : (1 / 1000 : ℝ) * cbrt 1 = 1 / 1000 := by
    norm_num [cbrt]
  obtain ⟨limits, floors⟩ := follows_energy_balance
  obtain ⟨greater, falls⟩ := floors ⟨1 / 10000000⟩ millimetreGrains 3000 ⟨10⟩ ⟨3⟩
  have inputs : millimetreGrains.gamma = 1 ∧ millimetreGrains.eta = 1 / 10 ∧
      millimetreGrains.slope = 7 / 2 ∧ millimetreGrains.target.getD 3 = 1 / 1000 := by
    norm_num [millimetreGrains, SurfaceEnergySettings.default]
  have limit : surfaceEnergyFloor millimetreGrains.gamma millimetreGrains.eta millimetreGrains.slope
      3000 (relativeVelocity ⟨10⟩ millimetreGrains.eccentricity).metresPerSecond
      (millimetreGrains.target.getD 3)
      (millimetreGrains.target.getD 3 * cbrt millimetreGrains.largestFragment) = 2 / 10125 := by
    rw [inputs.1, inputs.2.1, inputs.2.2.1, inputs.2.2.2, ← value]
    exact congrArg₂ (surfaceEnergyFloor 1 (1 / 10) (7 / 2) 3000 · (1 / 1000)) speed largest
  have resolved : (floor 0).IsResolved ⟨1 / 10000000⟩ (2 / 10125) := by
    rw [← limit]
    exact greater
  refine ⟨balanced, (limits _ _ _ _ _ _ _).1 balanced, ?_, ?_, ?_⟩
  · rw [resolved.size]
    norm_num
  · exact resolved.source.mpr (by norm_num)
  · exact falls ⟨le_rfl, zero_lt_one⟩ ⟨by norm_num, by norm_num⟩ (by norm_num)

end SizeFloor
end DebrisDisk
