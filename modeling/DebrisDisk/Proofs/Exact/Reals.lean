import Mathlib
import DebrisDisk.Proofs.Evaluation
import DebrisDisk.Proofs.Stages

/-!
# Exact arithmetic

The real numbers are a carrier of the model: sums, products and powers are exact, every number is
finite, and none is undefined. What the model derives from comparisons becomes the usual minimum,
maximum and absolute value, and a clamp lands between its bounds.

A bin that holds what it is asked for gives just that, and what is given and what is left add up.
Every fraction that a process computes lies between zero and one: `fraction_mem`,
`gateFactor_mem`, `eligibleFraction_mem`, `decayFraction_mem`, `shrinkLoss_mem`.
-/

namespace DebrisDisk
open Scalar

/-- The real numbers, with a quotient by zero that is zero. -/
noncomputable instance : Scalar ℝ where
  decLT := Classical.decRel _
  decLE := Classical.decRel _
  ofNat n := n
  toCount x := min ⌊x⌋₊ (2 ^ 64 - 1)
  ceil x := ⌈x⌉
  isFinite _ := true
  sqrt := Real.sqrt
  cbrt x := SignType.sign x * |x| ^ (1 / 3 : ℝ)
  exp := Real.exp
  expm1 x := Real.exp x - 1
  ln := Real.log
  cos := Real.cos
  pow x y := x ^ y

namespace Scalar
variable {x y lo hi : ℝ}

/-! ## Operations -/

@[simp] theorem ofNat_real (n : ℕ) : (Scalar.ofNat n : ℝ) = n := rfl
@[simp] theorem isFinite_real : isFinite x = true := rfl
@[simp] theorem sqrt_real : sqrt x = Real.sqrt x := rfl
@[simp] theorem exp_real : exp x = Real.exp x := rfl
@[simp] theorem expm1_real : expm1 x = Real.exp x - 1 := rfl
@[simp] theorem ln_real : ln x = Real.log x := rfl
@[simp] theorem pow_real : pow x y = x ^ y := rfl

@[simp] theorem isNaN_real : isNaN x = false := by simp [isNaN]

@[simp] theorem isZero_real : isZero x = true ↔ x = 0 := by
  simp only [isZero, Bool.and_eq_true, decide_eq_true_eq, ← le_antisymm_iff]

@[simp] theorem fmin_real : fmin x y = min x y := by
  simp only [fmin]
  split_ifs with less
  · exact (min_eq_left less.le).symm
  · simp_all
  · exact (min_eq_right (not_lt.mp less)).symm

@[simp] theorem fmax_real : fmax x y = max x y := by
  simp only [fmax]
  split_ifs with less
  · exact (max_eq_left less.le).symm
  · simp_all
  · exact (max_eq_right (not_lt.mp less)).symm

@[simp] theorem magnitude_real : magnitude x = |x| := by
  simp only [magnitude]
  split_ifs with negative
  · exact (abs_of_neg negative).symm
  · exact (abs_of_nonneg (not_lt.mp negative)).symm

@[simp] theorem sum_real (xs : List ℝ) : sum xs = xs.sum := by
  rw [List.sum_eq_foldl]
  rfl

/-! ## Powers -/

/-- The loop multiplies what it has by the power that is left. -/
theorem powAcc_real (acc x : ℝ) (n : ℕ) : powAcc acc x n = acc * x ^ n := by
  induction acc, x, n using powAcc.induct with
  | case1 acc x n last =>
    obtain rfl | rfl : n = 0 ∨ n = 1 := by omega
    · simp [powAcc]
    · simp [powAcc]
  | case2 acc x n kept more ih =>
    rw [powAcc, if_neg more]
    refine ih.trans ?_
    rw [← sq, ← pow_mul]
    rcases Nat.mod_two_eq_zero_or_one n with even | odd
    · have same : kept = acc := dif_neg (by omega)
      rw [same, show 2 * (n / 2) = n by omega]
    · have multiplied : kept = acc * x := dif_pos odd
      rw [multiplied, mul_assoc, ← pow_succ', show 2 * (n / 2) + 1 = n by omega]

/-- Repeated squaring computes the power. -/
@[simp] theorem powi_real (n : ℤ) : powi x n = x ^ n := by
  cases n with
  | ofNat n => simp [powi, powAcc_real]
  | negSucc n => simp [powi, powAcc_real, zpow_negSucc]

/-! ## Clamps -/

theorem clamp_mem (ordered : lo ≤ hi) : clamp x lo hi ∈ Set.Icc lo hi := by
  simp only [clamp]
  split_ifs with below above
  · exact ⟨le_rfl, ordered⟩
  · exact ⟨ordered, le_rfl⟩
  · exact ⟨not_lt.mp below, not_lt.mp above⟩

theorem clamp_of_mem (h : x ∈ Set.Icc lo hi) : clamp x lo hi = x := by
  simp only [clamp]
  rw [if_neg (not_lt.mpr h.1), if_neg (not_lt.mpr h.2)]

theorem clamp_real (ordered : lo ≤ hi) : clamp x lo hi = max lo (min x hi) := by
  simp only [clamp]
  split_ifs with below above
  · rw [min_eq_left (below.le.trans ordered), max_eq_left below.le]
  · rw [min_eq_right above.le, max_eq_right ordered]
  · rw [min_eq_left (not_lt.mp above), max_eq_right (not_lt.mp below)]

/-! ## Decays -/

/-- A decay leaves a share. -/
theorem exp_neg_mem (nonneg : 0 ≤ x) : Real.exp (-x) ∈ Set.Icc (0 : ℝ) 1 :=
  ⟨(Real.exp_pos _).le, Real.exp_le_one_iff.mpr (neg_nonpos.mpr nonneg)⟩

/-- What a decay takes needs no clamp. -/
theorem clamp_neg_expm1 (nonneg : 0 ≤ x) : clamp (-(expm1 (-x))) 0 1 = 1 - Real.exp (-x) := by
  have left := exp_neg_mem nonneg
  rw [expm1_real, neg_sub]
  exact clamp_of_mem ⟨sub_nonneg.mpr left.2, sub_le_self 1 left.1⟩

end Scalar

/-! ## Withdrawals -/

/-- The bin holds what it is asked for. -/
def Draw.IsCovered (d : Draw ℝ) : Prop := d.asked ∈ Set.Icc 0 d.held

theorem Draw.IsCovered.held_nonneg {d : Draw ℝ} (h : d.IsCovered) : 0 ≤ d.held := h.1.trans h.2

theorem Draw.IsCovered.given_eq {d : Draw ℝ} (h : d.IsCovered) : d.given = d.asked :=
  clamp_of_mem h

/-- A bin that holds what it is asked for gives just that. -/
theorem Draw.IsCovered.withdraw_eq {d : Draw ℝ} (h : d.IsCovered) :
    withdraw d.held d.asked = some d.asked :=
  withdraw_eq_some_iff.mpr ⟨h.held_nonneg, h.given_eq⟩

/-- What is left and what was given add up to what was held. -/
theorem sum_leave (held : List ℝ) (requests : List (Option ℝ)) :
    (leave held requests).sum + ((draws held requests).map Draw.given).sum = held.sum := by
  induction held generalizing requests with
  | nil => simp [leave, draws]
  | cons m ms ih =>
    rcases requests with _ | ⟨_ | kg, rs⟩
    · simp [draws]
    · simp only [leave, draws, List.sum_cons]
      linarith [ih rs]
    · simp only [leave, draws, List.map_cons, List.sum_cons, Draw.given]
      linarith [ih rs]

theorem leave_nonneg {held : List ℝ} (nonneg : ∀ m ∈ held, 0 ≤ m) (requests : List (Option ℝ)) :
    ∀ m ∈ leave held requests, 0 ≤ m := by
  intro left hleft
  obtain ⟨j, hj⟩ := List.mem_iff_getElem?.mp hleft
  rw [getElem?_leave] at hj
  obtain ⟨m, hm, rfl⟩ := Option.map_eq_some_iff.mp hj
  have positive := nonneg m (List.mem_of_getElem? hm)
  split
  · exact sub_nonneg.mpr (clamp_mem positive).2
  · exact positive

theorem adjusted_of_covered {m change : ℝ} (covered : 0 ≤ m + change) :
    adjusted m change = m + change := by
  simp only [adjusted]
  split_ifs with gain loss
  · rfl
  · rw [clamp_of_mem ⟨by linarith, by linarith⟩]
    ring
  · linarith

/-- Changes that the bins cover are made in full. -/
theorem adjust_of_covered {held changes : List ℝ} (short : changes.length ≤ held.length)
    (covered : ∀ (j : ℕ) m change, held[j]? = some m → changes[j]? = some change →
      0 ≤ m + change) :
    (adjust held changes).sum = held.sum + changes.sum ∧
      ((∀ m ∈ held, 0 ≤ m) → ∀ m ∈ adjust held changes, 0 ≤ m) := by
  induction held generalizing changes with
  | nil => simp_all [adjust]
  | cons m ms ih =>
    rcases changes with _ | ⟨change, rest⟩
    · simp
    · have first : 0 ≤ m + change := covered 0 m change rfl rfl
      have later := ih (by simpa using short)
        fun j m' change' hm' hchange' => covered (j + 1) m' change' hm' hchange'
      constructor
      · simp only [adjust, adjusted_of_covered first, List.sum_cons, later.1]
        ring
      · intro nonneg
        simp only [List.mem_cons, forall_eq_or_imp] at nonneg
        simp only [adjust, adjusted_of_covered first, List.mem_cons, forall_eq_or_imp]
        exact ⟨first, later.2 nonneg.2⟩

/-! ## Fractions -/

theorem Timescale.decayFraction_mem (t : Timescale ℝ) (dt : ℝ) :
    t.decayFraction dt ∈ Set.Icc (0 : ℝ) 1 := by
  cases t with
  | finite s => exact clamp_mem zero_le_one
  | infinite => exact ⟨le_rfl, zero_le_one⟩

theorem exactFraction_mem (ratio : ℝ) : exactFraction ratio ∈ Set.Icc (0 : ℝ) 1 := by
  simp only [exactFraction]
  split_ifs
  · exact clamp_mem zero_le_one
  · exact ⟨le_rfl, zero_le_one⟩

theorem FastStepRegime.fraction_mem (r : FastStepRegime ℝ) : r.fraction ∈ Set.Icc (0 : ℝ) 1 := by
  cases r with
  | linear ratio _ => exact clamp_mem zero_le_one
  | exponential ratio _ => exact exactFraction_mem ratio

theorem gateFactor_mem (blow competing : Timescale ℝ) :
    gateFactor blow competing ∈ Set.Icc (0 : ℝ) 1 := by
  cases blow with
  | infinite => exact ⟨zero_le_one, le_rfl⟩
  | finite b =>
    cases competing with
    | infinite => exact ⟨zero_le_one, le_rfl⟩
    | finite c => exact clamp_mem zero_le_one

theorem SkinColumn.share_mem (skin : SkinColumn ℝ) (active : ℝ) :
    skin.share active ∈ Set.Icc (0 : ℝ) 1 := by
  simp only [share]
  split_ifs
  · cases skin with
    | unbounded => exact ⟨zero_le_one, le_rfl⟩
    | column sigma =>
      simp only [false_and, if_false]
      exact clamp_mem zero_le_one
  · exact ⟨le_rfl, zero_le_one⟩

theorem BlowoutSettings.eligibleFraction_mem (s : BlowoutSettings ℝ) (phase : PhaseTag)
    (skin : SkinColumn ℝ) (active : ℝ) :
    s.eligibleFraction phase skin active ∈ Set.Icc (0 : ℝ) 1 := by
  simp only [eligibleFraction]
  split_ifs
  · exact ⟨le_rfl, zero_le_one⟩
  · cases s.layer with
    | full => exact ⟨zero_le_one, le_rfl⟩
    | skin => exact skin.share_mem active

theorem Evaluation.IsOf.eligibleFraction_mem {e : Evaluation ℝ} {c : RunConfig ℝ}
    {selector : PressureSelector ℝ} {state : DiskState ℝ} (h : e.IsOf c selector state) :
    e.eligibleFraction ∈ Set.Icc (0 : ℝ) 1 := by
  rw [h.eligibleFraction]
  split_ifs
  · exact ⟨le_rfl, zero_le_one⟩
  · exact c.blowout.eligibleFraction_mem _ _ _

/-- A grain that shrinks loses a fraction of its mass, all of it at most. -/
theorem shrinkLoss_mem {size ds : ℝ} (shrinks : 0 ≤ ds) :
    shrinkLoss size ds ∈ Set.Icc (0 : ℝ) 1 := by
  simp only [shrinkLoss, fmax_real]
  split_ifs with unphysical
  · exact ⟨zero_le_one, le_rfl⟩
  · have positive : 0 ≤ ds / size := div_nonneg shrinks (not_le.mp unphysical).le
    set left := max (1 - ds / size) 0 with hleft
    have nonneg : 0 ≤ left := le_max_right _ _
    have atMostOne : left ≤ 1 := max_le (by linarith) zero_le_one
    have cubed : left * left * left ≤ 1 :=
      mul_le_one₀ (mul_le_one₀ atMostOne nonneg atMostOne) nonneg atMostOne
    have cubedNonneg : 0 ≤ left * left * left := mul_nonneg (mul_nonneg nonneg nonneg) nonneg
    exact ⟨by linarith, by linarith⟩

end DebrisDisk
