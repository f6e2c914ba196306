import DebrisDisk.Proofs.Exact.Gate

/-!
# The aggregate blow-out time

A step reports one blow-out fraction, that of the aggregate blow-out time, while every bin loses its
own. The aggregate time is the mean of the blow-out times of the bins, harmonic and weighted by the
mass that each exposes, so it lies between the shortest and the longest of them. Bins that are bound
or expose nothing do not count.

Where every bin loses in proportion to the step, so does the whole, and what is removed is what is
reported. Where every bin decays, the fraction of a bin lies below the line that touches the decay
at the aggregate time, so that no more is removed than reported.

## Main definitions

* `unboundTimes`, `exposedMass`: the blow-out times that count, and the mass that they count for.

## Main results

* `eligibleRate_eq`: the exposed mass and its rate, from which the aggregate time is made.
* `exists_aggregateTimescale`: the aggregate time lies between the shortest and the longest time.
* `BlowoutSettings.plan_reports`: how the reported loss compares with what is removed.
-/

namespace DebrisDisk
open Scalar

/-! ## Bins that blow out -/

/-- The blow-out times in seconds of the bins that expose some mass. -/
def unboundTimes (bins : List (Timescale ℝ × ℝ)) : Set ℝ := {t | ∃ m, (.finite t, m) ∈ bins ∧ 0 < m}

/-- The mass in kilograms that blows out in some time. -/
def exposedMass (bins : List (Timescale ℝ × ℝ)) : ℝ :=
  (bins.map fun
    | (.finite _, m) => m
    | (.infinite, _) => 0).sum

/-- The second list has the bins of the first, and among them bins that are bound or expose no
mass. -/
inductive AddsIdle : List (Timescale ℝ × ℝ) → List (Timescale ℝ × ℝ) → Prop
  | nil : AddsIdle [] []
  | keep (bin : Timescale ℝ × ℝ) {bins more : List (Timescale ℝ × ℝ)} (rest : AddsIdle bins more) :
    AddsIdle (bin :: bins) (bin :: more)
  | add (bin : Timescale ℝ × ℝ) {bins more : List (Timescale ℝ × ℝ)}
    (idle : bin.1 = .infinite ∨ bin.2 ≤ 0) (rest : AddsIdle bins more) : AddsIdle bins (bin :: more)

/-! ## Sums over the bins that blow out -/

/-- The sum over the bins that blow out of their mass times a function of their time. -/
def weighed (f : ℝ → ℝ) : List (Timescale ℝ × ℝ) → ℝ
  | [] => 0
  | (.finite t, m) :: rest => m * f t + weighed f rest
  | (.infinite, _) :: rest => weighed f rest

section Weighed
variable {f g : ℝ → ℝ} {bins : List (Timescale ℝ × ℝ)}

theorem exposedMass_eq (bins : List (Timescale ℝ × ℝ)) :
    exposedMass bins = weighed (fun _ => 1) bins := by
  induction bins with
  | nil => rfl
  | cons bin rest ih =>
    obtain ⟨t | _, m⟩ := bin
    · simpa [weighed, exposedMass] using ih
    · simpa [weighed, exposedMass] using ih

/-- Of bins that all blow out, all mass counts. -/
theorem exposedMass_of_unbound (unbound : ∀ bin ∈ bins, bin.1 ≠ .infinite) :
    exposedMass bins = (bins.map Prod.snd).sum := by
  refine congrArg List.sum (List.map_congr_left fun bin member => ?_)
  obtain ⟨t | _, m⟩ := bin
  · rfl
  · exact absurd rfl (unbound _ member)

theorem weighed_mul_left (a : ℝ) (f : ℝ → ℝ) (bins : List (Timescale ℝ × ℝ)) :
    weighed (fun t => a * f t) bins = a * weighed f bins := by
  induction bins with
  | nil => simp [weighed]
  | cons bin rest ih =>
    obtain ⟨t | _, m⟩ := bin
    · rw [weighed, weighed, ih]
      ring
    · exact ih

theorem weighed_add (f g : ℝ → ℝ) (bins : List (Timescale ℝ × ℝ)) :
    weighed (fun t => f t + g t) bins = weighed f bins + weighed g bins := by
  induction bins with
  | nil => simp [weighed]
  | cons bin rest ih =>
    obtain ⟨t | _, m⟩ := bin
    · rw [weighed, weighed, weighed, ih]
      ring
    · exact ih

theorem weighed_mono (nonneg : ∀ bin ∈ bins, 0 ≤ bin.2)
    (less : ∀ t ∈ unboundTimes bins, f t ≤ g t) :
    weighed f bins ≤ weighed g bins := by
  induction bins with
  | nil => exact le_rfl
  | cons bin rest ih =>
    obtain ⟨first, later⟩ := List.forall_mem_cons.mp nonneg
    have tail := ih later fun t ⟨m, member, held⟩ => less t ⟨m, .tail _ member, held⟩
    obtain ⟨t | _, m⟩ := bin
    · have head : m * f t ≤ m * g t := by
        rcases first.eq_or_lt with rfl | held
        · rw [zero_mul, zero_mul]
        · exact mul_le_mul_of_nonneg_left (less t ⟨m, .head _, held⟩) first
      exact add_le_add head tail
    · exact tail

theorem weighed_congr (nonneg : ∀ bin ∈ bins, 0 ≤ bin.2)
    (same : ∀ t ∈ unboundTimes bins, f t = g t) : weighed f bins = weighed g bins :=
  le_antisymm (weighed_mono nonneg fun t member => (same t member).le)
    (weighed_mono nonneg fun t member => (same t member).ge)

/-- What the aggregate time is made from. -/
theorem eligibleRate_eq (nonneg : ∀ bin ∈ bins, 0 ≤ bin.2) (mass rate : ℝ) :
    eligibleRate mass rate bins =
      (mass + exposedMass bins, rate + weighed (fun t => 1 / t) bins) := by
  rw [exposedMass_eq]
  induction bins generalizing mass rate with
  | nil => simp [eligibleRate, weighed]
  | cons bin rest ih =>
    obtain ⟨first, later⟩ := List.forall_mem_cons.mp nonneg
    obtain ⟨t | _, m⟩ := bin
    · simp only [eligibleRate, weighed]
      rcases first.eq_or_lt with rfl | held
      · rw [if_neg (lt_irrefl _), ih later, zero_mul, zero_mul, zero_add, zero_add]
      · rw [if_pos held, ih later]
        ext <;> ring
    · exact ih later mass rate

end Weighed

/-- Bins that do not blow out leave the mass and the rate alone. -/
theorem AddsIdle.eligibleRate {bins more : List (Timescale ℝ × ℝ)} (adds : AddsIdle bins more)
    (mass rate : ℝ) : eligibleRate mass rate more = eligibleRate mass rate bins := by
  induction adds generalizing mass rate with
  | nil => rfl
  | keep bin _ ih =>
    obtain ⟨t | _, m⟩ := bin
    · simp only [DebrisDisk.eligibleRate, ih]
    · exact ih mass rate
  | add bin idle _ ih =>
    obtain ⟨t | _, m⟩ := bin
    · have none : m ≤ 0 := idle.resolve_left nofun
      rw [DebrisDisk.eligibleRate, if_neg (not_lt.mpr none), ih]
    · exact ih mass rate

/-! ## The mean -/

section Bounds
variable {bins : List (Timescale ℝ × ℝ)} (proper : ∀ bin ∈ bins, bin.1.IsProper)
  (nonneg : ∀ bin ∈ bins, 0 ≤ bin.2) (exposed : 0 < exposedMass bins)

theorem finite_unboundTimes (bins : List (Timescale ℝ × ℝ)) : (unboundTimes bins).Finite := by
  refine (List.finite_toSet (bins.map fun bin => bin.1.seconds?.getD 0)).subset ?_
  rintro t ⟨m, member, _⟩
  exact List.mem_map.mpr ⟨_, member, rfl⟩

include nonneg exposed in
theorem unboundTimes_nonempty : (unboundTimes bins).Nonempty := by
  by_contra empty
  rw [Set.not_nonempty_iff_eq_empty] at empty
  have nothing : weighed (fun _ => 1) bins ≤ weighed (fun _ => 0 * 1) bins :=
    weighed_mono nonneg fun t member => by simp [empty] at member
  rw [weighed_mul_left, zero_mul, ← exposedMass_eq] at nothing
  exact nothing.not_gt exposed

include proper in
theorem pos_of_mem_unboundTimes {t : ℝ} (member : t ∈ unboundTimes bins) : 0 < t := by
  obtain ⟨m, held, _⟩ := member
  exact (proper _ held t rfl).2

include proper nonneg exposed

/-- The shortest and the longest time bound the exposed mass by its rate. -/
theorem exists_bounds_exposedMass : ∃ shortest longest,
    IsLeast (unboundTimes bins) shortest ∧ IsGreatest (unboundTimes bins) longest ∧
      shortest * weighed (fun t => 1 / t) bins ≤ exposedMass bins ∧
      exposedMass bins ≤ longest * weighed (fun t => 1 / t) bins := by
  have finite := finite_unboundTimes bins
  have nonempty := unboundTimes_nonempty nonneg exposed
  obtain ⟨shortest, member, least⟩ := Set.exists_min_image _ id finite nonempty
  obtain ⟨longest, member', greatest⟩ := Set.exists_max_image _ id finite nonempty
  refine ⟨shortest, longest, ⟨member, least⟩, ⟨member', greatest⟩, ?_, ?_⟩
  · rw [← weighed_mul_left, exposedMass_eq]
    refine weighed_mono nonneg fun t acts => ?_
    rw [mul_one_div, div_le_one (pos_of_mem_unboundTimes proper acts)]
    exact least t acts
  · rw [← weighed_mul_left, exposedMass_eq]
    refine weighed_mono nonneg fun t acts => ?_
    rw [mul_one_div, one_le_div (pos_of_mem_unboundTimes proper acts)]
    exact greatest t acts

end Bounds

/-- A time between the shortest and the longest in which all exposed mass would blow out at the rate
of the bins. -/
structure IsMeanTime (bins : List (Timescale ℝ × ℝ)) (mean shortest longest : ℝ) : Prop where
  least : IsLeast (unboundTimes bins) shortest
  greatest : IsGreatest (unboundTimes bins) longest
  between : mean ∈ Set.Icc shortest longest
  acts : 0 < shortest
  rate : mean * weighed (fun t => 1 / t) bins = exposedMass bins

/-- The aggregate time is a mean time. -/
theorem exists_aggregateTimescale {times : List (Timescale ℝ)} {eligible : List ℝ}
    (proper : ∀ t ∈ times, t.IsProper) (nonneg : ∀ m ∈ eligible, 0 ≤ m)
    (exposed : 0 < exposedMass (times.zip eligible)) :
    ∃ mean shortest longest, aggregateTimescale times eligible = .finite mean ∧
      IsMeanTime (times.zip eligible) mean shortest longest := by
  have proper' : ∀ bin ∈ times.zip eligible, bin.1.IsProper := fun bin member =>
    proper bin.1 (List.of_mem_zip member).1
  have nonneg' : ∀ bin ∈ times.zip eligible, 0 ≤ bin.2 := fun bin member =>
    nonneg bin.2 (List.of_mem_zip member).2
  obtain ⟨shortest, longest, least, greatest, lower, upper⟩ :=
    exists_bounds_exposedMass proper' nonneg' exposed
  have sums := eligibleRate_eq nonneg' 0 0
  set mass := exposedMass (times.zip eligible) with hmass
  set rate := weighed (fun t => 1 / t) (times.zip eligible) with hrate
  have positive : 0 < rate := pos_of_mul_pos_right (exposed.trans_le upper)
    (pos_of_mem_unboundTimes proper' greatest.1).le
  have acts : 0 < mass / rate := div_pos exposed positive
  refine ⟨mass / rate, shortest, longest, ?_, least, greatest,
    ⟨(le_div_iff₀ positive).mpr lower, (div_le_iff₀ positive).mpr upper⟩,
    pos_of_mem_unboundTimes proper' least.1, div_mul_cancel₀ mass positive.ne'⟩
  simp [aggregateTimescale, sums, exposed, Timescale.ofSeconds, acts]

namespace IsMeanTime
variable {bins : List (Timescale ℝ × ℝ)} {mean shortest longest : ℝ}
  (h : IsMeanTime bins mean shortest longest) {dt : ℝ} {s : FastStepSettings ℝ}
include h

theorem pos : 0 < mean := h.acts.trans_le h.between.1

theorem ratio_nonneg (forward : 0 ≤ dt) {t : ℝ} (member : t ∈ unboundTimes bins) : 0 ≤ dt / t :=
  div_nonneg forward (h.acts.trans_le (h.least.2 member)).le

/-- In proportion to the step, all bins together lose as much as in the mean time. -/
theorem weighed_ratio (dt : ℝ) :
    weighed (fun t => dt / t) bins = dt / mean * exposedMass bins := by
  have each : (fun t => dt / t) = fun t => dt * (1 / t) := funext fun t => (mul_one_div dt t).symm
  rw [each, weighed_mul_left, ← h.rate, ← mul_assoc, div_mul_cancel₀ dt h.pos.ne']

variable (nonneg : ∀ bin ∈ bins, 0 ≤ bin.2) (forward : 0 ≤ dt)
include nonneg

/-- Decaying, all bins together lose no more than in the mean time. -/
theorem weighed_decay_le (dt : ℝ) : weighed (fun t => 1 - Real.exp (-(dt / t))) bins ≤
    (1 - Real.exp (-(dt / mean))) * exposedMass bins := by
  set left := Real.exp (-(dt / mean)) with hleft
  -- The line that touches the fraction at the mean ratio lies above it everywhere.
  have tangent (t : ℝ) :
      1 - Real.exp (-(dt / t)) ≤ (1 - left * (1 + dt / mean)) * 1 + left * (dt / t) := by
    have apart : Real.exp (-(dt / t)) = left * Real.exp (dt / mean - dt / t) := by
      rw [hleft, ← Real.exp_add]
      ring_nf
    have above : left * (dt / mean - dt / t + 1) ≤ left * Real.exp (dt / mean - dt / t) :=
      mul_le_mul_of_nonneg_left (Real.add_one_le_exp _) (Real.exp_pos _).le
    rw [apart]
    linarith
  calc
    weighed (fun t => 1 - Real.exp (-(dt / t))) bins
      ≤ weighed (fun t => (1 - left * (1 + dt / mean)) * 1 + left * (dt / t)) bins :=
        weighed_mono nonneg fun t _ => tangent t
    _ = (1 - left * (1 + dt / mean)) * exposedMass bins +
          left * (dt / mean * exposedMass bins) := by
        rw [weighed_add, weighed_mul_left, weighed_mul_left, ← exposedMass_eq, h.weighed_ratio]
    _ = (1 - left) * exposedMass bins := by ring

include forward

/-- Where every bin loses in proportion to the step, so does the whole. -/
theorem weighed_fraction_of_short
    (short : ∀ t ∈ unboundTimes bins, dt / t ≤ s.linearLimit) :
    weighed (fun t => s.fraction dt (.finite t)) bins =
      s.fraction dt (.finite mean) * exposedMass bins := by
  have mean_short : dt / mean ≤ s.linearLimit :=
    (div_le_div_of_nonneg_left forward h.acts h.between.1).trans (short shortest h.least.1)
  have linear : weighed (fun t => s.fraction dt (.finite t)) bins =
      weighed (fun t => dt / t) bins :=
    weighed_congr nonneg fun t member =>
      FastStepSettings.fraction_of_le_linearLimit (h.ratio_nonneg forward member) (short t member)
  rw [linear, h.weighed_ratio, FastStepSettings.fraction_of_le_linearLimit
    (div_nonneg forward h.pos.le) mean_short]

/-- Where every bin decays, the whole loses no more than in the mean time. -/
theorem weighed_fraction_of_long (enabled : s.enabled = true)
    (long : ∀ t ∈ unboundTimes bins, s.limit < dt / t) :
    weighed (fun t => s.fraction dt (.finite t)) bins ≤
      s.fraction dt (.finite mean) * exposedMass bins := by
  have mean_long : s.limit < dt / mean :=
    (long longest h.greatest.1).trans_le (div_le_div_of_nonneg_left forward h.pos h.between.2)
  have decayed : weighed (fun t => s.fraction dt (.finite t)) bins =
      weighed (fun t => 1 - Real.exp (-(dt / t))) bins :=
    weighed_congr nonneg fun t member =>
      FastStepSettings.fraction_of_long enabled (h.ratio_nonneg forward member) (long t member)
  rw [decayed, FastStepSettings.fraction_of_long enabled (div_nonneg forward h.pos.le) mean_long]
  exact h.weighed_decay_le nonneg dt

end IsMeanTime

/-! ## Reported and actual loss -/

namespace BlowoutSettings
variable (s : BlowoutSettings ℝ) {dt : ℝ} {times : List (Timescale ℝ)} {eligible : List ℝ}

/-- What a plan removes in all. -/
theorem sum_removal_plan (dt : ℝ) (times : List (Timescale ℝ)) (nonneg : ∀ m ∈ eligible, 0 ≤ m)
    (timescales : TimescaleSet ℝ) (depthGated : Bool) :
    (s.plan dt times eligible timescales depthGated).removal.sum =
      (s.plan dt times eligible timescales depthGated).decision.gate *
        weighed (fun t => s.fastStep.fraction dt (.finite t)) (times.zip eligible) := by
  rw [s.removal_plan dt times nonneg]
  change _ = gateFactor timescales.blow (s.gateMode.competing timescales) * _
  induction times.zip eligible with
  | nil => simp [weighed]
  | cons bin rest ih =>
    obtain ⟨t | _, m⟩ := bin
    · rw [List.map_cons, List.sum_cons, ih, weighed]
      ring
    · rw [List.map_cons, List.sum_cons, ih, weighed, FastStepSettings.fraction_infinite, mul_zero,
        zero_mul, zero_add]

/-- **The reported loss is the actual one in short steps, and bounds it in long ones.** The
aggregate blow-out time lies between the shortest and the longest that count, whatever bins there
are that do not. Where every bin loses in proportion to the step, just the reported fraction of the
exposed mass is removed, and where every bin decays, no more than that. -/
theorem plan_reports (forward : 0 < dt) (proper : ∀ t ∈ times, t.IsProper)
    (nonneg : ∀ m ∈ eligible, 0 ≤ m) (exposed : 0 < exposedMass (times.zip eligible))
    {timescales : TimescaleSet ℝ} (aggregate : timescales.blow = aggregateTimescale times eligible)
    (depthGated : Bool) :
    let bins := times.zip eligible
    let plan := s.plan dt times eligible timescales depthGated
    (∃ mean shortest longest, timescales.blow = .finite mean ∧
      IsLeast (unboundTimes bins) shortest ∧ IsGreatest (unboundTimes bins) longest ∧
      mean ∈ Set.Icc shortest longest) ∧
    (∀ times' eligible', AddsIdle bins (times'.zip eligible') →
      aggregateTimescale times' eligible' = timescales.blow) ∧
    ((∀ t ∈ unboundTimes bins, dt / t ≤ s.fastStep.linearLimit) →
      plan.removal.sum = plan.decision.loss * exposedMass bins) ∧
    (s.fastStep.enabled = true → (∀ t ∈ unboundTimes bins, s.fastStep.limit < dt / t) →
      plan.removal.sum ≤ plan.decision.loss * exposedMass bins) := by
  intro bins plan
  obtain ⟨mean, shortest, longest, finite, h⟩ := exists_aggregateTimescale proper nonneg exposed
  rw [← aggregate] at finite
  have nonneg' : ∀ bin ∈ bins, 0 ≤ bin.2 := fun bin member =>
    nonneg bin.2 (List.of_mem_zip member).2
  have removed : plan.removal.sum = _ := s.sum_removal_plan dt times nonneg timescales depthGated
  have reported : plan.decision.loss =
      plan.decision.gate * s.fastStep.fraction dt (.finite mean) := by
    rw [← finite]
    rfl
  rw [removed, reported, mul_assoc]
  refine ⟨⟨mean, shortest, longest, finite, h.least, h.greatest, h.between⟩,
    fun times' eligible' adds => ?_, fun short => ?_, fun enabled long => ?_⟩
  · rw [aggregate, aggregateTimescale, adds.eligibleRate]
    rfl
  · rw [h.weighed_fraction_of_short nonneg' forward.le short]
  · exact mul_le_mul_of_nonneg_left (h.weighed_fraction_of_long nonneg' forward.le enabled long)
      (gateFactor_mem _ _).1

/-- Two bins of a kilogram that blow out in one and in four seconds: in a step of a tenth of a
second just the reported loss is removed, and in one of ten seconds no more. A bound bin makes no
difference. -/
theorem plan_reports_pair :
    let times : List (Timescale ℝ) := [.finite 1, .finite 4]
    let timescales : TimescaleSet ℝ :=
      { TimescaleSet.inactive with blow := aggregateTimescale times [1, 1] }
    let short := (default : BlowoutSettings ℝ).plan 0.1 times [1, 1] timescales false
    let long := (default : BlowoutSettings ℝ).plan 10 times [1, 1] timescales false
    aggregateTimescale [.finite 1, .infinite, .finite 4] [1, 10, 1] = timescales.blow ∧
      short.removal.sum = short.decision.loss * 2 ∧ long.removal.sum ≤ long.decision.loss * 2 := by
  intro times timescales short long
  have proper : ∀ t ∈ times, t.IsProper := by
    intro t member
    simp only [times, List.mem_cons, List.not_mem_nil, or_false] at member
    obtain rfl | rfl := member <;> rintro _ ⟨rfl⟩ <;> exact ⟨rfl, by norm_num⟩
  have nonneg : ∀ m ∈ ([1, 1] : List ℝ), 0 ≤ m := by norm_num
  have mass : exposedMass (times.zip [1, 1]) = 2 := by norm_num [exposedMass, times]
  have exposed : 0 < exposedMass (times.zip [1, 1]) := mass ▸ two_pos
  have members : ∀ t ∈ unboundTimes (times.zip [1, 1]), t = 1 ∨ t = 4 := by
    rintro t ⟨m, member, _⟩
    simp only [times, List.zip_cons_cons, List.zip_nil_right, List.mem_cons, Prod.mk.injEq,
      Timescale.finite.injEq, List.not_mem_nil, or_false] at member
    exact member.imp And.left And.left
  have tenth : (0 : ℝ) < 0.1 := by norm_num
  have ten : (0 : ℝ) < 10 := by norm_num
  have aggregate : timescales.blow = aggregateTimescale times [1, 1] := rfl
  obtain ⟨_, adds, reports, _⟩ :=
    plan_reports default tenth proper nonneg exposed aggregate false
  obtain ⟨_, _, _, bounds⟩ :=
    plan_reports default ten proper nonneg exposed aggregate false
  rw [mass] at reports bounds
  refine ⟨adds [.finite 1, .infinite, .finite 4] [1, 10, 1]
    (.keep _ (.add _ (.inl rfl) (.keep _ .nil))), reports fun t member => ?_,
    bounds rfl fun t member => ?_⟩
  · obtain rfl | rfl := members t member <;>
      norm_num [FastStepSettings.linearLimit, FastStepSettings.limit, default,
        FastStepSettings.default]
  · obtain rfl | rfl := members t member <;>
      norm_num [FastStepSettings.limit, default, FastStepSettings.default]

end BlowoutSettings
end DebrisDisk
