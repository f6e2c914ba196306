import DebrisDisk.Proofs.Exact.Reals
import DebrisDisk.Proofs.Trajectory
import DebrisDisk.Proofs.Special.Overflow
import DebrisDisk.Proofs.Special.Passage

/-!
# Steep supplies

The exponent of a power law has no bound. Once the power overflows, a supply of amplitude zero
delivers no defined mass any more, and one of positive amplitude delivers an infinite mass. The runs
below have such a supply, and a grid of a single bin. They pass every check, and their first step
can be evaluated.

## Main definitions

* `RunConfig.steep`: the run with such a supply of amplitude zero.
* `RunConfig.steepOf`: the same run with any amplitude.

## Main results

* `SupplySettings.sampleMass_of_overflow`, `SupplySettings.isInfinite_sampleMass`: what is delivered
  once the power overflows.
* `RunConfig.prepare_steepOf`: the runs are accepted.
* `Integrator.exists_new_steepOf`: their first step.
-/

namespace DebrisDisk
open Scalar Rounded Rounding

namespace SupplySettings
variable {R : Rounding} {s : SupplySettings (Rounded R)} {l : SupplyPowerLaw (Rounded R)}
  {t : Time (Rounded R)}

/-- The rate of a power law that has begun. -/
theorem rate_of_begun (history : s.history = .powerLaw l)
    (begun : 0 < t.seconds - l.onset + l.softening) : s.rate t =
      s.mixing * (l.amplitude * Scalar.pow (t.seconds - l.onset + l.softening) l.index) := by
  simp only [rate, history, SupplyHistory.rateAt, SupplyPowerLaw.rateAt]
  rw [if_pos begun]

/-- A power law of amplitude zero delivers an undefined mass once its power overflows. -/
theorem sampleMass_of_overflow (history : s.history = .powerLaw l)
    (nothing : isZero l.amplitude = true) (mixed : 0 < s.mixing) (steady : ¬ 0 < s.jitter)
    (begun : 0 < t.seconds - l.onset + l.softening)
    (overflown : (Scalar.pow (t.seconds - l.onset + l.softening) l.index).IsInfinite)
    (dt : Time (Rounded R)) (g : Random.Generator) : (s.sampleMass t dt g).1 = nan := by
  have nonneg : 0 ≤ l.amplitude := by
    simp only [isZero, Bool.and_eq_true, decide_eq_true_eq] at nothing
    exact nothing.2
  have product : l.amplitude * Scalar.pow (t.seconds - l.onset + l.softening) l.index = nan := by
    rw [mul_swap, mul_eq_nan_iff overflown.not_le_zero nonneg]
    exact .inr ⟨overflown.isFinite_eq_false, nothing⟩
  have active : s.isActive = true := by simp [isActive, history, mixed]
  simp [sampleMass, active, rate_of_begun history begun, product, steady]

/-- A power law of positive amplitude delivers an infinite mass once its power overflows. -/
theorem isInfinite_sampleMass (history : s.history = .powerLaw l) (some : 0 < l.amplitude)
    (mixed : 0 < s.mixing) (steady : ¬ 0 < s.jitter)
    (begun : 0 < t.seconds - l.onset + l.softening)
    (overflown : (Scalar.pow (t.seconds - l.onset + l.softening) l.index).IsInfinite)
    {dt : Time (Rounded R)} (forward : 0 < dt.seconds) (g : Random.Generator) :
    (s.sampleMass t dt g).1.IsInfinite := by
  have active : s.isActive = true := by simp [isActive, history, mixed]
  have rate : (s.rate t).IsInfinite := by
    rw [rate_of_begun history begun, mul_swap, mul_swap l.amplitude]
    exact (overflown.mul some).mul mixed
  have nominal := rate.mul forward
  simpa [sampleMass, active, steady, nominal.not_le_zero] using nominal

end SupplySettings

/-! ## A grid of one bin -/

namespace SizeBins
variable {lo hi q : Rounded overflow} {v w r : ℝ}

/-- A grid of one bin reaches from the smallest size to the greatest. -/
theorem exists_logSpaced_one {density : Rounded overflow} (hlo : lo.Stands v) (hhi : hi.Stands w)
    (large : 1 ≤ v) (ascending : v < w)
    (solid : 0 < density ∧ isFinite density = true) :
    ∃ b x y, logSpaced ⟨lo⟩ ⟨hi⟩ 1 ⟨density⟩ = .ok b ∧ b.spans = [(x, y)] ∧ b.masses = [0] ∧
      x.Stands v ∧ y.Stands w := by
  have positive : 0 < v := one_pos.trans_le large
  have upward : Real.log v < Real.log w := Real.log_lt_log positive ascending
  have top : Real.log w < bound :=
    (Real.log_le_self (positive.trans ascending).le).trans_lt hhi.small
  have start := hlo.ln large (upward.trans top)
  have start_nonneg := start.exact_nonneg
  have width := (hhi.ln (large.trans ascending.le) top).sub start upward.le (by linarith)
  have zero := Stands.ofNat 0 (lt_bound_of_le (by norm_num))
  have one := Stands.ofNat 1 (lt_bound_of_le (by norm_num))
  have none := zero.div one (by norm_num) (lt_bound_of_le (by norm_num))
  have whole := one.div one (by norm_num) (lt_bound_of_le (by norm_num))
  simp only [Nat.cast_zero, Nat.cast_one, div_one] at none whole
  have first := start.add (none.mul width (by linarith)) (by linarith)
  have last := start.add (whole.mul width (by linarith)) (by linarith)
  simp only [zero_mul, add_zero, one_mul, add_sub_cancel] at first last
  have below := first.exp (by rw [Real.exp_log positive]; exact hlo.small)
  have above := last.exp (by rw [Real.exp_log (positive.trans ascending)]; exact hhi.small)
  rw [Real.exp_log positive] at below
  rw [Real.exp_log (positive.trans ascending)] at above
  have spaced : logSpaced ⟨lo⟩ ⟨hi⟩ 1 ⟨density⟩ = .ok {
      edges := logEdges lo hi 1, centres := geometricMeans (logEdges lo hi 1), masses := [0]
      density } := by
    simp [logSpaced, bind_eq_ok_iff, pure, Except.pure, hlo.pos_iff.mpr positive,
      (hlo.lt_iff hhi).mpr ascending, hhi.isFinite, solid]
  exact ⟨_, _, _, spaced, rfl, rfl, below, above⟩

/-- The only bin of a grid has the whole share of a power law. -/
theorem powerLawWeights_one {b : SizeBins (Rounded overflow)} {x y floor : Rounded overflow}
    (spans : b.spans = [(x, y)]) (hx : x.Stands v) (hy : y.Stands w) (hfloor : floor.Stands v)
    (hq : q.Stands r) (positive : 0 < v) (ascending : v < w) (flat : r ≤ 3.0)
    (small : w ^ (4.0 - r) < bound) :
    ∃ share, b.powerLawWeights floor q = [share] ∧ share.Stands 1 := by
  have above := hx.fmax hfloor
  rw [max_self] at above
  have raw := above.powerLawIntegral hy hq positive ascending flat small
  have exponent : 0 < 4.0 - r := by linarith [show (3 : ℝ) < 4.0 by norm_num]
  have some : 0 < (w ^ (4.0 - r) - v ^ (4.0 - r)) / (4.0 - r) :=
    div_pos (sub_pos.mpr (Real.rpow_lt_rpow positive.le ascending exponent)) exponent
  set part := (w ^ (4.0 - r) - v ^ (4.0 - r)) / (4.0 - r)
  have total := Stands.zero.add raw (by rw [zero_add]; exact raw.small)
  rw [zero_add] at total
  have share := raw.div total some (by rw [div_self some.ne']; exact Stands.one.small)
  rw [div_self some.ne'] at share
  refine ⟨_, ?_, share⟩
  simp [powerLawWeights, spans, sum, total.pos_iff.mpr some, total.isFinite]

/-- The only bin of a grid takes the whole delivery. -/
theorem exists_shares_one {b : SizeBins (Rounded overflow)} {x y floor : Rounded overflow}
    {s : SupplySettings (Rounded overflow)} (spans : b.spans = [(x, y)]) (hx : x.Stands v)
    (hy : y.Stands w) (hfloor : floor.Stands v) (hq : s.slope.Stands r) (positive : 0 < v)
    (ascending : v < w) (flat : r ≤ 3.0) (small : w ^ (4.0 - r) < bound) :
    ∃ share, s.shares b floor = [share] ∧ share.Stands 1 := by
  obtain ⟨share, weights, whole⟩ :=
    powerLawWeights_one spans hx hy hfloor hq positive ascending flat small
  have active : activeWeight x y floor = 1 := by
    simp only [activeWeight]
    rw [if_neg ((hy.le_iff hfloor).not.mpr (not_le.mpr ascending)),
      if_pos ((hfloor.le_iff hx).mpr le_rfl)]
  have unclipped : ¬ (1 : Rounded overflow) < 1 := (not_lt_iff one_ne_nan one_ne_nan).mpr
    (le_self one_ne_nan)
  have total := Stands.zero.add whole (lt_bound_of_le (by norm_num))
  have part := whole.div total (by norm_num) (lt_bound_of_le (by norm_num))
  rw [zero_add, div_one] at part
  refine ⟨_, ?_, part⟩
  simp [SupplySettings.shares, weights, activeWeights, spans, active, unclipped, sum, total.pos_iff]

end SizeBins

/-! ## A run -/

namespace Rounded

/-- A literal of a common scale is positive and finite. -/
private theorem literal_positive {m : ℕ} {s : Bool} {e : ℕ}
    (positive : 0 < (OfScientific.ofScientific m s e : ℝ))
    (small : (OfScientific.ofScientific m s e : ℝ) ≤ 1.0e30) :
    0 < (OfScientific.ofScientific m s e : Rounded overflow) ∧
      isFinite (OfScientific.ofScientific m s e : Rounded overflow) = true :=
  have stands := Stands.literal m s e (lt_bound_of_le small)
  ⟨stands.pos_iff.mpr positive, stands.isFinite⟩

/-- Literals of a common scale are compared by their values. -/
private theorem literal_lt {m n : ℕ} {s t : Bool} {e f : ℕ}
    (less : (OfScientific.ofScientific m s e : ℝ) < OfScientific.ofScientific n t f)
    (small : (OfScientific.ofScientific n t f : ℝ) ≤ 1.0e30) :
    (OfScientific.ofScientific m s e : Rounded overflow) < OfScientific.ofScientific n t f :=
  ((Stands.literal m s e (lt_bound_of_le (less.le.trans small))).lt_iff
    (Stands.literal n t f (lt_bound_of_le small))).mpr less

private theorem literal_lt_one {m : ℕ} {s : Bool} {e : ℕ}
    (less : (OfScientific.ofScientific m s e : ℝ) < 1) :
    (OfScientific.ofScientific m s e : Rounded overflow) < 1 :=
  ((Stands.literal m s e (less.trans Stands.one.small)).lt_iff Stands.one).mpr less

end Rounded

namespace RunConfig

/-- A run with a grid of one bin and a supply of amplitude zero, whose power overflows. -/
def steep {α : Type} [Scalar α] : RunConfig α where
  geometry := { marsRadii := 2.0, metres := some 1.0e7, widthFraction := 0.1 }
  material := .default
  sizes := { smallest := 1.0, greatest := 2.0, bins := 1 }
  initial := { marsMasses := 1.0e-5, slope := 3.0, smallest := none }
  temperature := { history := .default, absorption := 1.0 }
  radiation := .default
  phase := { (.default : PhaseSettings α) with enabled := false }
  sublimation := .default
  collisions := .default
  sizeFloor := .default
  shielding := .default
  blowout := .default
  sinks := .default
  supply := {
    history := .powerLaw { amplitude := 0, onset := 0, index := 2000.0, softening := 2.0 }
    mixing := 1, jitter := 0, slope := 3.0 }
  numerics := .default
  budget := .default
  seed := 12345

/-- The run with a supply of any amplitude, whose power overflows. -/
def steepOf {α : Type} [Scalar α] (amplitude : α) : RunConfig α :=
  { (steep : RunConfig α) with
    supply := {
      history := .powerLaw { amplitude, onset := 0, index := 2000.0, softening := 2.0 }
      mixing := 1, jitter := 0, slope := 3.0 } }

theorem steepOf_zero {α : Type} [Scalar α] : steepOf 0 = (steep : RunConfig α) := rfl

variable {a : Rounded overflow}

private theorem zero_usable : 0 ≤ (0 : Rounded overflow) ∧ isFinite (0 : Rounded overflow) = true :=
  ⟨le_self zero_ne_nan, Stands.zero.isFinite⟩

private theorem one_usable : 0 < (1 : Rounded overflow) ∧ isFinite (1 : Rounded overflow) = true :=
  ⟨Rounded.zero_lt_one, Stands.one.isFinite⟩

theorem isValid_steepOf (amplitude : 0 ≤ a ∧ isFinite a = true) : (steepOf a).IsValid where
  orbit :=
    ⟨literal_lt (by norm_num) (by norm_num), (literal_positive (by norm_num) (by norm_num)).2⟩
  width := ⟨literal_positive (by norm_num) (by norm_num), le_of_lt (literal_lt_one (by norm_num))⟩
  density := literal_positive (by norm_num) (by norm_num)
  sizes := ⟨literal_positive (by norm_num) (by norm_num), literal_lt (by norm_num) (by norm_num)⟩
  bins := Nat.one_pos
  mass := literal_positive (by norm_num) (by norm_num)
  lower := nofun
  history := by
    refine ⟨⟨4000.0, rfl, ?_, ?_⟩, trivial⟩
    · exact le_of_lt (literal_lt (by norm_num) (by norm_num))
    · exact le_of_lt (literal_lt (by norm_num) (by norm_num))
  absorption := literal_positive (by norm_num) (by norm_num)
  efficiency := one_usable
  threshold := literal_positive (by norm_num) (by norm_num)
  blowoutEfficiency := by simpa [steepOf, steep, RadiationSettings.default] using one_usable
  override := nofun
  depthGate := one_usable
  ramp := ⟨literal_positive (by norm_num) (by norm_num), literal_lt (by norm_num) (by norm_num)⟩
  evaporation :=
    ⟨literal_positive (by norm_num) (by norm_num), le_of_lt (literal_lt_one (by norm_num))⟩
  molarMass := literal_positive (by norm_num) (by norm_num)
  gasPressure := zero_usable
  fragmentSlope :=
    ⟨literal_lt (by norm_num) (by norm_num), (literal_positive (by norm_num) (by norm_num)).2⟩
  vaporOpacity := zero_usable
  fastThreshold := (literal_positive (by norm_num) (by norm_num)).imp_left le_of_lt
  strictThreshold := (literal_positive (by norm_num) (by norm_num)).imp_left le_of_lt
  gasDrag := nofun
  hydroEscape := nofun
  supply := ⟨amplitude,
    (not_le_iff num_ne_nan zero_ne_nan).mpr (literal_positive (by norm_num) (by norm_num)).1⟩
  mixing := one_usable.imp_left le_of_lt
  jitter := zero_usable
  injectionSlope :=
    ⟨literal_lt (by norm_num) (by norm_num), (literal_positive (by norm_num) (by norm_num)).2⟩
  fixedStep := by
    rintro _ ⟨⟩
    exact literal_positive (by norm_num) (by norm_num)
  safety := ⟨literal_positive (by norm_num) (by norm_num), le_of_lt (literal_lt_one (by norm_num))⟩
  maxSteps := nofun
  massFloor := ⟨(literal_positive (by norm_num) (by norm_num)).imp_left le_of_lt,
    literal_lt_one (by norm_num)⟩
  horizon := by
    have years := (Stands.literal 20 true 1 (lt_bound_of_le (by norm_num))).mul
      (Stands.literal 315576000 true 1 (lt_bound_of_le (by norm_num)))
      (lt_bound_of_le (by norm_num))
    refine ⟨Time.ofYears 2.0, NumericsSettings.horizon_eq_ok_iff.mpr ⟨rfl, ?_, years.isFinite⟩⟩
    exact years.pos_iff.mpr (by norm_num)
  tolerance := literal_positive (by norm_num) (by norm_num)

/-- The run starts with the configured mass in its only bin. -/
theorem initialBins_steepOf : ∃ b x y m, (steepOf a).initialBins = .ok b ∧
    b.spans = [(x, y)] ∧ b.masses = [m] ∧ x.Stands 1.0 ∧ y.Stands 2.0 ∧
      m.Stands (1.0e-5 * 6.4171e23 * 1) := by
  have low : Stands (1.0 : Rounded overflow) 1.0 := .literal _ _ _ (lt_bound_of_le (by norm_num))
  have high : Stands (2.0 : Rounded overflow) 2.0 := .literal _ _ _ (lt_bound_of_le (by norm_num))
  have slope : Stands (3.0 : Rounded overflow) 3.0 := .literal _ _ _ (lt_bound_of_le (by norm_num))
  obtain ⟨b, x, y, spaced, spans, masses, hx, hy⟩ := SizeBins.exists_logSpaced_one low high
    (by norm_num) (by norm_num) (isValid_steepOf zero_usable).density
  obtain ⟨share, weights, whole⟩ := SizeBins.powerLawWeights_one spans hx hy low slope
    (by norm_num) (by norm_num) (by norm_num) (lt_bound_of_le (by norm_num))
  have total : (Mass.ofMarsMasses (1.0e-5 : Rounded overflow)).kilograms.Stands
      (1.0e-5 * 6.4171e23) :=
    (Stands.literal _ _ _ (lt_bound_of_le (by norm_num))).mul
      (Stands.literal _ _ _ (lt_bound_of_le (by norm_num))) (lt_bound_of_le (by norm_num))
  have mass := total.mul whole (lt_bound_of_le (by norm_num))
  have filled : b.withPowerLaw (.ofMarsMasses 1.0e-5) 3.0 ⟨1.0⟩ =
      .ok { b with masses := [(Mass.ofMarsMasses 1.0e-5).kilograms * share] } := by
    have some : ¬ isZero share = true := by
      rw [whole.isZero_iff]
      norm_num
    simp [SizeBins.withPowerLaw, weights, some, masses, bind_eq_ok_iff, pure, Except.pure]
  have initial : (steepOf a).initialBins =
      .ok { b with masses := [(Mass.ofMarsMasses 1.0e-5).kilograms * share] } := by
    simp only [initialBins]
    rw [bind_eq_ok_iff]
    exact ⟨b, spaced, filled⟩
  exact ⟨_, x, y, _, initial, spans, rfl, hx, hy, mass⟩

/-- The run is prepared, with a grid of one bin from one metre to two. -/
theorem prepare_steepOf (amplitude : 0 ≤ a ∧ isFinite a = true) :
    ∃ p b x y, (steepOf a).prepare = .ok p ∧
      p.selector = .ladder [] (steepOf a).sublimation.baseline ∧
      p.state = (steepOf a).initialState b ∧ b.spans = [(x, y)] ∧ x.Stands 1.0 ∧ y.Stands 2.0 := by
  obtain ⟨b, x, y, m, initial, spans, masses, hx, hy, hm⟩ := initialBins_steepOf (a := a)
  have total := Stands.zero.add hm (lt_bound_of_le (by norm_num))
  have mass : 0 < b.totalMass.kilograms ∧ isFinite b.totalMass.kilograms = true := by
    simp only [SizeBins.totalMass, masses]
    exact ⟨total.pos_iff.mpr (by norm_num), total.isFinite⟩
  have laws : (steepOf a).sublimation.selector =
      .ok (.ladder [] (steepOf a).sublimation.baseline) := by
    simp [steepOf, steep, SublimationSettings.default, SublimationSettings.selector,
      SublimationSettings.candidates, pure, Except.pure, bind, Except.bind]
  obtain ⟨p, prepared, selector, state⟩ :=
    prepare_of_initialBins (isValid_steepOf amplitude) laws initial mass
  exact ⟨p, b, x, y, prepared, selector, state, spans, hx, hy⟩

/-- The grains of the run are warm. -/
private theorem grainsUnder_steepOf :
    isFinite ((steepOf a).grainsUnder ⟨4000.0⟩).kelvin = true ∧
      0 < ((steepOf a).grainsUnder ⟨4000.0⟩).kelvin := by
  have absorbed : Stands (Scalar.pow (1.0 : Rounded overflow) 0.25) (1 ^ (0.25 : ℝ)) := by
    have base : Stands (1.0 : Rounded overflow) 1.0 := .literal _ _ _ (lt_bound_of_le (by norm_num))
    rw [show (1.0 : ℝ) = 1 by norm_num] at base
    refine base.pow (.literal _ _ _ (lt_bound_of_le (by norm_num))) one_pos (by norm_num) ?_
    rw [Real.one_rpow]
    exact Stands.one.small
  rw [Real.one_rpow] at absorbed
  have radii : Stands (marsRadius / (2.0 * 1.0e7) : Rounded overflow) (3.3895e6 / (2.0 * 1.0e7)) :=
    (Stands.literal _ _ _ (lt_bound_of_le (by norm_num))).div
      ((Stands.literal _ _ _ (lt_bound_of_le (by norm_num))).mul
        (Stands.literal _ _ _ (lt_bound_of_le (by norm_num))) (lt_bound_of_le (by norm_num)))
      (by norm_num) (lt_bound_of_le (by norm_num))
  have diluted : √(3.3895e6 / (2.0 * 1.0e7)) ≤ (1 : ℝ) := Real.sqrt_le_one.mpr (by norm_num)
  have root := radii.sqrt (diluted.trans_lt Stands.one.small)
  have factor := absorbed.mul root (by rw [one_mul]; exact root.small)
  have surface : Stands (4000.0 : Rounded overflow) 4000.0 :=
    .literal _ _ _ (lt_bound_of_le (by norm_num))
  have kelvin := surface.mul factor (lt_bound_of_le (by
    calc (4000.0 : ℝ) * (1 * √(3.3895e6 / (2.0 * 1.0e7))) ≤ 4000.0 * (1 * 1) := by gcongr
      _ ≤ 1.0e30 := by norm_num))
  exact ⟨kelvin.isFinite, kelvin.pos_iff.mpr (by positivity)⟩

/-- The run can be evaluated in every state. -/
theorem evaluate_steepOf (state : DiskState (Rounded overflow)) :
    ∃ e, (steepOf a).evaluate (.ladder [] (steepOf a).sublimation.baseline) state = .ok e := by
  have warm := literal_positive (m := 40000) (s := true) (e := 1) (by norm_num) (by norm_num)
  have surface : (steepOf a).surfaceAt state.time = .ok ⟨4000.0⟩ := by
    simp only [surfaceAt]
    rw [bind_eq_ok_iff]
    refine ⟨⟨4000.0⟩, mapError_eq_ok_iff.mpr rfl, ?_⟩
    rw [if_pos ⟨warm.2, warm.1⟩]
    rfl
  have phase : ∃ x, (steepOf a).phase.evaluate
      (.ladder [] (steepOf a).sublimation.baseline)
      ⟨(steepOf a).sublimation.gasPressure⟩
      ((steepOf a).grainsUnder ⟨4000.0⟩)
      (steepOf a).temperature.history.source state.pathDepth = .ok x := by
    simp only [PhaseSettings.evaluate]
    rw [if_pos grainsUnder_steepOf]
    have solid : (steepOf a).phase.enabled = false := rfl
    simp only [solid, Bool.false_eq_true, if_false, zero_usable.2, if_true, bind_eq_ok_iff]
    exact ⟨_, _, rfl, rfl⟩
  obtain ⟨x, phase⟩ := phase
  simp only [evaluate]
  exact ⟨_, bind_eq_ok_iff.mpr ⟨_, surface, bind_eq_ok_iff.mpr ⟨x, phase, rfl⟩⟩⟩

/-- The floor of the run is the smallest size. -/
theorem floor_steepOf (bins : SizeBins (Rounded overflow)) :
    ((steepOf a).sizeFloorOf bins).size.metres = 1.0 := by
  have limit : ¬ (1.0 : Rounded overflow) < 0 :=
    (not_lt_iff (ofSize_ne_nan _) zero_ne_nan).mpr (ofSize_nonneg _)
  exact congrArg (fun f : SizeFloor (Rounded overflow) => f.size.metres) (if_neg limit)

/-- The power law of the run overflows at the start. -/
theorem overflown_steep : 0 < (0 - 0 + 2.0 : Rounded overflow) ∧
    (Scalar.pow (0 - 0 + 2.0 : Rounded overflow) 2000.0).IsInfinite := by
  have base := (Stands.zero.sub Stands.zero le_rfl (lt_bound_of_le (by norm_num))).add
    (Stands.literal 20 true 1 (lt_bound_of_le (by norm_num))) (lt_bound_of_le (by norm_num))
  rw [show (0 - 0 + OfScientific.ofScientific 20 true 1 : ℝ) = 2 by norm_num] at base
  have index : Stands (2000.0 : Rounded overflow) 2000.0 :=
    .literal _ _ _ (lt_bound_of_le (by norm_num))
  have positive := base.pos_iff.mpr two_pos
  have steep := index.pos_iff.mpr (by norm_num)
  obtain ⟨nonneg, size⟩ := pow_of_pos positive (ne_nan_of_lt steep).2
    ((pos_iff_size (le_of_lt steep)).mp steep)
  have large : bound ≤ 2 ^ (2000.0 : ℝ) := by
    rw [show (2000.0 : ℝ) = (2000 : ℕ) by norm_num, Real.rpow_natCast]
    exact pow_le_pow_right₀ one_le_two (by norm_num)
  refine ⟨positive, nonneg, ?_⟩
  rw [size, base.size, index.value, power, if_neg (EReal.coe_ne_top _),
    if_neg (EReal.coe_ne_bot _), EReal.toReal_coe, ENNReal.ofReal_rpow_of_pos two_pos,
    overflow_of_bound_le (ENNReal.ofReal_le_ofReal large)]

end RunConfig

/-! ## The first step -/

namespace Integrator
variable {σ : Type} {start : Integrator (Rounded overflow) σ} {a : Rounded overflow}
  {s : StepInputs (Rounded overflow)}

/-- A run with a steep supply before its first step, which goes forward. The only bin takes the
delivery whole. -/
structure OpensSteep (start : Integrator (Rounded overflow) σ) (a : Rounded overflow)
    (s : StepInputs (Rounded overflow)) : Prop where
  config : start.config = .steepOf a
  time : start.state.time = 0
  lifecycle : start.lifecycle = .initializing
  gathered : start.inputs = .ok s
  forward : 0 < s.dt.seconds
  shares : ∃ share, start.config.supply.shares
    (s.evaluation.passage start.config s.dt s.delivered start.state.bins).retired
    s.evaluation.floor.size.metres = [share] ∧ share.Stands 1

namespace OpensSteep

/-- What is delivered in the first step. -/
theorem delivered_eq (opens : start.OpensSteep a s) :
    s.delivered = ((RunConfig.steepOf a).supply.sampleMass 0 s.dt start.random).1 := by
  have drawn := congrArg Prod.fst (inputs_eq_ok opens.gathered).delivered
  simpa only [opens.config, opens.time] using drawn

private theorem steady : ¬ (0 : Rounded overflow) < 0 :=
  (not_lt_iff zero_ne_nan zero_ne_nan).mpr (le_self zero_ne_nan)

/-- A supply of amplitude zero delivers an undefined mass. -/
theorem delivered_eq_nan (opens : start.OpensSteep 0 s) : s.delivered = nan := by
  obtain ⟨begun, overflown⟩ := RunConfig.overflown_steep
  rw [opens.delivered_eq]
  exact SupplySettings.sampleMass_of_overflow rfl (isZero_iff.mpr ⟨zero_ne_nan, size_zero⟩)
    Rounded.zero_lt_one steady begun overflown s.dt _

/-- A supply of positive amplitude delivers an infinite mass. -/
theorem isInfinite_delivered (opens : start.OpensSteep a s) (some : 0 < a) :
    s.delivered.IsInfinite := by
  obtain ⟨begun, overflown⟩ := RunConfig.overflown_steep
  rw [opens.delivered_eq]
  exact SupplySettings.isInfinite_sampleMass rfl some Rounded.zero_lt_one steady begun overflown
    opens.forward _

/-- The delivery finds a place. -/
theorem exists_share (opens : start.OpensSteep a s) :
    ∃ share ∈ start.config.supply.shares
      (s.evaluation.passage start.config s.dt s.delivered start.state.bins).retired
      s.evaluation.floor.size.metres, isZero share = false := by
  obtain ⟨share, shares, whole⟩ := opens.shares
  refine ⟨share, shares ▸ List.mem_singleton_self _, ?_⟩
  rw [← Bool.not_eq_true, whole.isZero_iff]
  norm_num

/-- A supply of positive amplitude spoils nothing, and neither gas drag nor escape acts. -/
theorem not_meetsUndefined (opens : start.OpensSteep a s) (some : 0 < a) :
    ¬ s.evaluation.MeetsUndefined start.config s.dt s.delivered start.state.bins := by
  have inputs := inputs_eq_ok opens.gathered
  have infinite := opens.isInfinite_delivered some
  rintro (⟨_, _, undefined | ⟨_, w, hw, zero⟩⟩ | ⟨dragged, _⟩ | ⟨escapes, _⟩)
  · exact (ne_nan_of_le infinite.nonneg).2 (isNaN_iff.mp undefined)
  · obtain ⟨share, shares, whole⟩ := opens.shares
    rw [shares, List.mem_singleton] at hw
    rw [hw, whole.isZero_iff] at zero
    norm_num at zero
  · rw [opens.config] at dragged
    cases dragged
  · have off : start.config.sinks.hydroEscape.enabled = false := by
      rw [opens.config]
      rfl
    have idle : s.evaluation.timescales.escape = .infinite := by
      rw [inputs.evaluation.timescales]
      cases tag : s.evaluation.phase.tag with
      | solid => rfl
      | vapor => simp [HydroEscapeSettings.timescaleIn, HydroEscapeSettings.timescale, off]
    rw [idle] at escapes
    exact escapes (le_self zero_ne_nan)

end OpensSteep

/-- The first step of a run with a fixed step length goes forward. -/
theorem forward_of_fixed {c : RunConfig (Rounded overflow)} {p : Preparation (Rounded overflow)}
    (run : start.IsRunOf c p) (time : start.state.time = 0) {seconds : Rounded overflow}
    (fixed : c.numerics.step = .fixed seconds) (inputs : s.IsOf start) : 0 < s.dt.seconds := by
  obtain ⟨valid, horizon, _⟩ := RunConfig.prepare_eq_ok run.prepared
  obtain ⟨_, positive, finite⟩ := NumericsSettings.horizon_eq_ok_iff.mp horizon
  obtain ⟨timescales, proper, plan⟩ := run.plan_of_inputs inputs
  have planned : 0 < s.plan.dt.seconds := by
    rw [plan]
    simp only [NumericsSettings.plan, NumericsSettings.stepLength, fixed]
    exact fmin_of_both (P := fun x => 0 < x) (valid.fixedStep seconds fixed).1 positive
  have next := congrArg Prod.fst inputs.next
  simp only [time] at next
  rw [next]
  simp only [StepPlan.next]
  split_ifs
  · have remaining : s.plan.horizon.seconds - 0 = p.horizon.seconds := by
      rw [plan]
      exact Neutral.sub_zero _ (isPositive_iff.mpr ⟨positive, finite⟩)
    change 0 < fmax (s.plan.horizon.seconds - 0) 0
    rwa [remaining, fmax_eq zero_ne_nan, if_pos positive]
  · exact planned

/-- A run with a steep supply is accepted, and its first step can be evaluated. -/
theorem exists_new_steepOf [DiagnosticsSink (Rounded overflow) σ]
    (amplitude : 0 ≤ a ∧ isFinite a = true) (sink : σ) :
    ∃ start : Integrator (Rounded overflow) σ, Integrator.new (.steepOf a) sink = .ok start ∧
      ∃ s, start.OpensSteep a s := by
  obtain ⟨p, b, x, y, prepared, selector, state, spans, hx, hy⟩ :=
    RunConfig.prepare_steepOf amplitude
  obtain ⟨e, evaluated⟩ := RunConfig.evaluate_steepOf (a := a) p.state
  obtain ⟨start, accepted⟩ : ∃ start, Integrator.new (.steepOf a) sink = .ok start :=
    ⟨_, new_of_prepare prepared sink⟩
  obtain ⟨p', prepared', made⟩ := new_eq_ok accepted
  obtain rfl : p' = p := by simpa [prepared] using prepared'.symm
  have gathered : ∃ s, start.inputs = .ok s := by
    simp only [made, inputs, selector, evaluated]
    exact ⟨_, rfl⟩
  obtain ⟨s, gathered⟩ := gathered
  have inputs := inputs_eq_ok gathered
  have time : start.state.time = 0 := by rw [made, state]; rfl
  have floor : s.evaluation.floor.size.metres = 1.0 := by
    rw [inputs.evaluation.floor, made]
    exact RunConfig.floor_steepOf _
  have low : Stands (1.0 : Rounded overflow) 1.0 := .literal _ _ _ (lt_bound_of_le (by norm_num))
  have slope : Stands (3.0 : Rounded overflow) 3.0 := .literal _ _ _ (lt_bound_of_le (by norm_num))
  refine ⟨start, accepted, s, {
    config := by rw [made]
    lifecycle := by rw [made]
    time, gathered
    forward := ?_
    shares := ?_ }⟩
  · obtain ⟨p'', run, _⟩ := isRunOf_new accepted
    exact forward_of_fixed run time rfl inputs
  · rw [floor, made, state]
    exact SizeBins.exists_shares_one spans hx hy low slope (by norm_num) (by norm_num)
      (by norm_num) (lt_bound_of_le (by norm_num))

/-- The first step of the run with amplitude zero draws from an undefined mass. -/
theorem exists_new_steep [DiagnosticsSink (Rounded overflow) σ] (sink : σ) :
    ∃ start : Integrator (Rounded overflow) σ, Integrator.new .steep sink = .ok start ∧
      start.lifecycle = .initializing ∧ ∃ s, start.inputs = .ok s ∧
        s.evaluation.MeetsUndefined start.config s.dt s.delivered start.state.bins := by
  rw [← RunConfig.steepOf_zero]
  obtain ⟨start, accepted, s, opens⟩ :=
    exists_new_steepOf ⟨le_self zero_ne_nan, Stands.zero.isFinite⟩ sink
  refine ⟨start, accepted, opens.lifecycle, s, opens.gathered, .inl ⟨?_, opens.exists_share, ?_⟩⟩
  · rw [opens.delivered_eq_nan]
    exact nan_le
  · rw [opens.delivered_eq_nan]
    exact .inl (isNaN_iff.mpr rfl)

end Integrator
end DebrisDisk
