import DebrisDisk.Proofs.Exact.LongSteps

/-!
# The gate in exact arithmetic

The gate attributes to blow-out its share of the combined rate of blow-out and a competing process.
What it plans to remove from a bin is that share, times the fraction of the step, times the mass on
which blow-out acts, whether or not there is any. Both factors are fractions, so no bin is asked for
more than it exposes, and the share grows with the competing timescale, so a slower competitor never
saves a grain.

## Main results

* `gateFactor_eq_share`: the factor is the share of blow-out in the combined rate.
* `gateFactor_le_gateFactor`: it grows with the competing timescale.
* `BlowoutSettings.removal_plan`: the removal of each bin as a product.
* `BlowoutSettings.plan_bounded`: the bounds of a plan, and how it depends on the competitor.
-/

namespace DebrisDisk
open Scalar

/-- The second timescale is at least as long, or infinite. -/
inductive Timescale.NoLonger : Timescale ℝ → Timescale ℝ → Prop
  | finite {a b : ℝ} (ordered : a ≤ b) : NoLonger (.finite a) (.finite b)
  | infinite (t : Timescale ℝ) : NoLonger t .infinite

/-! ## The share of blow-out -/

section Share
variable {b c : ℝ} (blow : 0 < b) (competing : 0 < c)
include blow competing

theorem gateFactor_finite : gateFactor (.finite b) (.finite c) = c / (c + b) :=
  clamp_of_mem ⟨by positivity, div_le_one_of_le₀ (by linarith) (by linarith)⟩

/-- The factor is the share of blow-out in the combined rate. -/
theorem gateFactor_eq_share : gateFactor (.finite b) (.finite c) =
    (Timescale.finite b).rate / ((Timescale.finite b).rate + (Timescale.finite c).rate) := by
  rw [gateFactor_finite blow competing, Timescale.rate, Timescale.rate]
  field_simp

/-- The two shares of a combined rate make up the whole. -/
theorem gateFactor_add_gateFactor :
    gateFactor (.finite b) (.finite c) + gateFactor (.finite c) (.finite b) = 1 := by
  rw [gateFactor_finite blow competing, gateFactor_finite competing blow, add_comm b c, ← add_div]
  exact div_self (by positivity)

end Share

/-- The share of blow-out grows with the competing timescale. -/
theorem gateFactor_le_gateFactor {blow t t' : Timescale ℝ} (properBlow : blow.IsProper)
    (proper : t.IsProper) (longer : t.NoLonger t') : gateFactor blow t ≤ gateFactor blow t' := by
  cases longer with
  | infinite =>
    rw [gateFactor_infinite]
    exact (gateFactor_mem _ _).2
  | @finite c c' ordered =>
    cases blow with
    | infinite => exact le_rfl
    | finite b =>
      have positiveBlow : 0 < b := (properBlow b rfl).2
      have positive : 0 < c := (proper c rfl).2
      have positive' : 0 < c' := positive.trans_le ordered
      rw [gateFactor_finite positiveBlow positive, gateFactor_finite positiveBlow positive',
        div_le_div_iff₀ (by positivity) (by positivity)]
      nlinarith

/-! ## What is removed from a bin -/

/-- A bin without a regime has nothing to lose, and one with a regime loses its fraction. -/
theorem BlowoutSettings.binRegime?_cases (s : BlowoutSettings ℝ) (dt : ℝ) (t : Timescale ℝ) {m : ℝ}
    (nonneg : 0 ≤ m) :
    (s.binRegime? dt t m = none ∧ s.fastStep.fraction dt t * m = 0) ∨
      ∃ r, s.binRegime? dt t m = some r ∧ s.fastStep.fraction dt t = r.fraction := by
  rcases nonneg.eq_or_lt with rfl | held
  · exact .inl ⟨if_neg (lt_irrefl 0), mul_zero _⟩
  · rw [binRegime?, if_pos held, FastStepSettings.fraction]
    cases s.fastStep.regime? dt t with
    | none => exact .inl ⟨rfl, zero_mul m⟩
    | some r => exact .inr ⟨r, rfl, rfl⟩

/-- What a step removes from a bin is a product, also when there is nothing to remove. -/
theorem Evaluation.removalOf_eq (e : Evaluation ℝ) (c : RunConfig ℝ) (dt : Time ℝ)
    (t : Timescale ℝ) {eligible : ℝ} (nonneg : 0 ≤ eligible) : e.removalOf c dt t eligible =
      gateFactor e.timescales.blow (c.blowout.gateMode.competing e.timescales) *
        c.blowout.fastStep.fraction dt.seconds t * eligible := by
  rw [removalOf, mul_assoc]
  obtain ⟨idle, nothing⟩ | ⟨r, acts, fraction⟩ := c.blowout.binRegime?_cases dt.seconds t nonneg
  · simp only [idle, nothing, mul_zero]
  · simp only [acts, fraction, mul_assoc]

/-! ## Plans -/

/-- The fractions of a plan are fractions, and it asks no bin for more than its share of the mass
on which blow-out acts. -/
structure BlowoutPlan.IsBounded (p : BlowoutPlan ℝ) (eligible : List ℝ) : Prop where
  gate : p.decision.gate ∈ Set.Icc (0 : ℝ) 1
  nominal : p.decision.nominalFraction ∈ Set.Icc (0 : ℝ) 1
  loss : p.decision.loss ∈ Set.Icc (0 : ℝ) 1
  loss_le : p.decision.loss ≤ p.decision.nominalFraction
  removal : ∀ (j : ℕ) kg, p.removal[j]? = some kg →
    ∃ m, eligible[j]? = some m ∧ kg ∈ Set.Icc 0 (p.decision.gate * m)

namespace BlowoutSettings
variable (s : BlowoutSettings ℝ) (dt : ℝ) (times : List (Timescale ℝ)) {eligible : List ℝ}
  (nonneg : ∀ m ∈ eligible, 0 ≤ m)

section Plan
variable (timescales : TimescaleSet ℝ) (depthGated : Bool)
include nonneg

/-- The removal of each bin, from its blow-out time and its mass. -/
theorem removal_plan : (s.plan dt times eligible timescales depthGated).removal =
    (times.zip eligible).map fun bin =>
      gateFactor timescales.blow (s.gateMode.competing timescales) *
        s.fastStep.fraction dt bin.1 * bin.2 := by
  refine List.map_congr_left fun (t, m) member => ?_
  have mass : 0 ≤ m := nonneg m (List.of_mem_zip member).2
  rw [mul_assoc]
  obtain ⟨idle, nothing⟩ | ⟨r, acts, fraction⟩ := s.binRegime?_cases dt t mass
  · simp only [idle, nothing, mul_zero]
  · simp only [acts, fraction, mul_assoc]

theorem isBounded_plan : (s.plan dt times eligible timescales depthGated).IsBounded eligible := by
  have gate := gateFactor_mem timescales.blow (s.gateMode.competing timescales)
  have nominal := s.fastStep.fraction_mem dt timescales.blow
  constructor
  case gate => exact gate
  case nominal => exact nominal
  case loss => exact ⟨mul_nonneg gate.1 nominal.1, mul_le_one₀ gate.2 nominal.1 nominal.2⟩
  case loss_le => exact mul_le_of_le_one_left nominal.1 gate.2
  case removal =>
    intro j kg planned
    rw [s.removal_plan dt times nonneg timescales depthGated, List.getElem?_map,
      Option.map_eq_some_iff] at planned
    obtain ⟨⟨t, m⟩, bin, rfl⟩ := planned
    obtain ⟨_, held⟩ := List.getElem?_zip_eq_some.mp bin
    have mass : 0 ≤ m := nonneg m (List.mem_of_getElem? held)
    have fraction := s.fastStep.fraction_mem dt t
    refine ⟨m, held, mul_nonneg (mul_nonneg gate.1 fraction.1) mass, ?_⟩
    exact mul_le_mul_of_nonneg_right (mul_le_of_le_one_right gate.1 fraction.2) mass

end Plan

section Competitor
variable {timescales slower : TimescaleSet ℝ} (proper : timescales.IsProper)
include proper

/-- A slower competitor leaves blow-out a greater share. -/
theorem gate_le_gate (same : slower.blow = timescales.blow)
    (longer : (s.gateMode.competing timescales).NoLonger (s.gateMode.competing slower)) :
    gateFactor timescales.blow (s.gateMode.competing timescales) ≤
      gateFactor slower.blow (s.gateMode.competing slower) := by
  rw [same]
  exact gateFactor_le_gateFactor proper.blow (proper.competing s.gateMode) longer

include nonneg

/-- A plan with a slower competitor removes no less. -/
theorem plan_le_plan (same : slower.blow = timescales.blow)
    (longer : (s.gateMode.competing timescales).NoLonger (s.gateMode.competing slower))
    (depthGated : Bool) :
    List.Forall₂ (· ≤ ·) (s.plan dt times eligible timescales depthGated).removal
        (s.plan dt times eligible slower depthGated).removal ∧
      (s.plan dt times eligible timescales depthGated).decision.loss ≤
        (s.plan dt times eligible slower depthGated).decision.loss := by
  have gate := s.gate_le_gate proper same longer
  have fraction (t : Timescale ℝ) : 0 ≤ s.fastStep.fraction dt t := (s.fastStep.fraction_mem dt t).1
  constructor
  · rw [s.removal_plan dt times nonneg timescales, s.removal_plan dt times nonneg slower,
      List.forall₂_map_left_iff, List.forall₂_map_right_iff, List.forall₂_same]
    intro bin member
    have mass : 0 ≤ bin.2 := nonneg bin.2 (List.of_mem_zip member).2
    exact mul_le_mul_of_nonneg_right (mul_le_mul_of_nonneg_right gate (fraction bin.1)) mass
  · change _ * s.fastStep.fraction dt timescales.blow ≤ _ * s.fastStep.fraction dt slower.blow
    rw [same] at gate ⊢
    exact mul_le_mul_of_nonneg_right gate (fraction timescales.blow)

/-- **A plan is bounded, and removes no less with a slower competitor.** Its gate is the share of
blow-out in the combined rate of the two processes, and the two shares make up the whole. -/
theorem plan_bounded (depthGated : Bool) :
    let plan := s.plan dt times eligible timescales depthGated
    plan.removal.length = min times.length eligible.length ∧ plan.IsBounded eligible ∧
      (∀ slower : TimescaleSet ℝ, slower.blow = timescales.blow →
        (s.gateMode.competing timescales).NoLonger (s.gateMode.competing slower) →
          List.Forall₂ (· ≤ ·) plan.removal (s.plan dt times eligible slower depthGated).removal ∧
            plan.decision.loss ≤ (s.plan dt times eligible slower depthGated).decision.loss) ∧
      plan.decision.gate = gateFactor timescales.blow (s.gateMode.competing timescales) ∧
      ∀ b c : ℝ, 0 < b → 0 < c →
        gateFactor (.finite b) (.finite c) = (Timescale.finite b).rate /
          ((Timescale.finite b).rate + (Timescale.finite c).rate) ∧
        gateFactor (.finite b) (.finite c) + gateFactor (.finite c) (.finite b) = 1 := by
  refine ⟨?_, s.isBounded_plan dt times nonneg timescales depthGated, fun slower same longer => ?_,
    rfl, fun b c blow competing => ?_⟩
  · simp [plan]
  · exact s.plan_le_plan dt times nonneg proper same longer depthGated
  · exact ⟨gateFactor_eq_share blow competing, gateFactor_add_gateFactor blow competing⟩

end Competitor

/-- Grains that collide as fast as they blow out are halved between the two, and without collisions
no fewer blow out. -/
theorem plan_bounded_collision :
    let s : BlowoutSettings ℝ := { default with gateMode := .collision }
    let both : TimescaleSet ℝ := { TimescaleSet.inactive with
      blow := .finite 100, coll := .finite 100 }
    let plan := s.plan 1 [.finite 100, .infinite] [10, 10] both false
    plan.IsBounded [10, 10] ∧ plan.decision.gate = 1 / 2 ∧
      plan.decision.loss ≤ (s.plan 1 [.finite 100, .infinite] [10, 10]
        { both with coll := .infinite } false).decision.loss := by
  intro s both plan
  have proper : both.IsProper := by
    have acts : (Timescale.finite (100 : ℝ)).IsProper := fun t same => by
      obtain rfl := Timescale.finite.inj same
      exact ⟨rfl, by norm_num⟩
    exact ⟨acts, Timescale.isProper_infinite, acts, Timescale.isProper_infinite,
      Timescale.isProper_infinite⟩
  have nonneg : ∀ m ∈ ([10, 10] : List ℝ), 0 ≤ m := by norm_num
  obtain ⟨_, bounded, slower, gate, shares⟩ :=
    plan_bounded s 1 [.finite 100, .infinite] nonneg proper false
  obtain ⟨_, whole⟩ := shares 100 100 (by norm_num) (by norm_num)
  refine ⟨bounded, ?_, (slower { both with coll := .infinite } rfl (.infinite _)).2⟩
  have half : plan.decision.gate = gateFactor (.finite 100) (.finite 100) := gate
  rw [half]
  linarith

end BlowoutSettings
end DebrisDisk
