import DebrisDisk.Proofs.Special.Numbers

/-!
# Arithmetic with special values

An amount is a number that is undefined or not negative. Sums and products of amounts are amounts,
and so is what is left of an amount after some of it was given. What keeps an operation from being
undefined is stated beside it, in most cases that one operand is finite.

## Main results

* `Rounded.IsAmount.add`, `Rounded.IsAmount.mul`, `Rounded.IsAmount.div`.
* `Rounded.mul_mem`: a share of a finite amount is finite and at most the whole.
* `Rounded.left_nonneg`: what is left of a bin.
* `Rounded.sum_mem`: the terms of a finite sum of amounts.
* `Rounded.add_unbounded`, `Rounded.mul_unbounded`, `Rounded.sum_unbounded`.
-/

namespace DebrisDisk.Rounded
open Scalar
open scoped ENNReal
variable {R : Rounding} {x y : Rounded R}

/-! ## Undefined operands -/

@[simp] theorem nan_add : (nan : Rounded R) + y = nan := rfl

@[simp] theorem add_nan : x + (nan : Rounded R) = nan := by cases x <;> rfl

@[simp] theorem nan_sub : (nan : Rounded R) - y = nan := rfl

@[simp] theorem sub_nan : x - (nan : Rounded R) = nan := by cases x <;> rfl

@[simp] theorem nan_mul : (nan : Rounded R) * y = nan := rfl

@[simp] theorem mul_nan : x * (nan : Rounded R) = nan := by cases x <;> rfl

@[simp] theorem nan_div : (nan : Rounded R) / y = nan := rfl

@[simp] theorem div_nan : x / (nan : Rounded R) = nan := by cases x <;> rfl

@[simp] theorem neg_nan : -(nan : Rounded R) = nan := rfl

@[simp] theorem ln_nan : Scalar.ln (nan : Rounded R) = nan := rfl

@[simp] theorem nan_lt : ¬ (nan : Rounded R) < y := fun h => h.elim

@[simp] theorem nan_le : ¬ (nan : Rounded R) ≤ y := fun h => h.elim

@[simp] theorem lt_nan : ¬ x < (nan : Rounded R) := by
  intro h
  exact (ne_nan_of_lt h).2 rfl

@[simp] theorem le_nan : ¬ x ≤ (nan : Rounded R) := by
  intro h
  exact (ne_nan_of_le h).2 rfl

theorem neg_ne_nan (h : x ≠ nan) : -x ≠ nan := by
  cases x with
  | nan => exact absurd rfl h
  | num s a => exact num_ne_nan

theorem expm1_ne_nan (h : x ≠ nan) : Scalar.expm1 x ≠ nan := by
  cases x with
  | nan => exact absurd rfl h
  | num s a =>
    simp only [Scalar.expm1, Rounded.expm1]
    split_ifs
    · exact num_ne_nan
    · exact ofValue_ne_nan _

/-! ## Equations -/

section Equations
variable {s t : Bool} {a b : R.Magnitude}

open Classical in
theorem num_add_num : (num s a + num t b : Rounded R) =
    if s = t then num s (R.fit (a.val + b.val))
    else if a.val = ⊤ ∧ b.val = ⊤ then nan
    else if b.val < a.val then num s (R.fit (a.val - b.val))
    else if a.val < b.val then num t (R.fit (b.val - a.val))
    else num false (R.fit 0) := rfl

theorem num_sub_num : (num s a - num t b : Rounded R) = num s a + num (!t) b := rfl

open Classical in
theorem num_mul_num : (num s a * num t b : Rounded R) =
    if (a.val = 0 ∧ b.val = ⊤) ∨ (a.val = ⊤ ∧ b.val = 0) then nan
    else num (s ^^ t) (R.fit (a.val * b.val)) := rfl

open Classical in
theorem num_div_num : (num s a / num t b : Rounded R) =
    if (a.val = 0 ∧ b.val = 0) ∨ (a.val = ⊤ ∧ b.val = ⊤) then nan
    else num (s ^^ t) (R.fit (a.val / b.val)) := rfl

end Equations

theorem mul_swap (x y : Rounded R) : x * y = y * x := by
  cases x with
  | nan => exact mul_nan.symm
  | num s a =>
    cases y with
    | nan => rfl
    | num t b => simp only [num_mul_num, mul_comm, Bool.xor_comm, and_comm, or_comm]

/-! ## Numbers that are not negative -/

/-- A positive number has the positive sign. -/
theorem exists_num_of_pos (h : 0 < x) : ∃ a : R.Magnitude, x = num false a ∧ a.val ≠ 0 := by
  have some := (pos_iff_size (le_of_lt h)).mp h
  cases x with
  | nan => exact absurd h lt_nan
  | num s a =>
    cases s with
    | false => exact ⟨a, rfl, some⟩
    | true => exact absurd (num_nonneg_iff.mp (le_of_lt h) rfl) some

/-- The sum of two numbers that are not negative. -/
theorem add_nonneg (hx : 0 ≤ x) (hy : 0 ≤ y) :
    0 ≤ x + y ∧ (x + y).size = R.round (x.size + y.size) := by
  cases x with
  | nan => exact absurd hx le_nan
  | num s a =>
    cases y with
    | nan => exact absurd hy le_nan
    | num t b =>
      rw [num_nonneg_iff] at hx hy
      rw [num_add_num]
      cases s with
      | false =>
        cases t with
        | false => simp [num_nonneg_iff, size]
        | true =>
          have none : b.val = 0 := hy rfl
          by_cases some : 0 < a.val
          · simp [num_nonneg_iff, size, none, some]
          · have : a.val = 0 := by simpa using some
            simp [num_nonneg_iff, size, none, this]
      | true =>
        have none : a.val = 0 := hx rfl
        cases t with
        | false =>
          by_cases some : 0 < b.val
          · simp [num_nonneg_iff, size, none, some]
          · have : b.val = 0 := by simpa using some
            simp [num_nonneg_iff, size, none, this]
        | true => simp [num_nonneg_iff, size, none, hy rfl]

/-- The product of two numbers that are not negative, undefined for zero and infinity. -/
theorem mul_cases (hx : 0 ≤ x) (hy : 0 ≤ y) :
    (x * y = nan ∧ ((x.size = 0 ∧ y.size = ⊤) ∨ (x.size = ⊤ ∧ y.size = 0))) ∨
      (0 ≤ x * y ∧ (x * y).size = R.round (x.size * y.size)) := by
  cases x with
  | nan => exact absurd hx le_nan
  | num s a =>
    cases y with
    | nan => exact absurd hy le_nan
    | num t b =>
      rw [num_nonneg_iff] at hx hy
      rw [num_mul_num]
      split_ifs with special
      · exact .inl ⟨rfl, special⟩
      · right
        refine ⟨num_nonneg_iff.mpr ?_, rfl⟩
        intro negative
        rw [R.fit_val]
        cases s with
        | false => simp [hy (by simpa using negative)]
        | true => simp [hx rfl]

/-- The difference of two numbers that are not negative, of which the second is not greater; it is
undefined for two infinite ones. -/
theorem sub_cases (hy : 0 ≤ y) (h : y ≤ x) :
    (x - y = nan ∧ x.size = ⊤ ∧ y.size = ⊤) ∨
      (0 ≤ x - y ∧ (x - y).size = R.round (x.size - y.size)) := by
  have hx := le_trans hy h
  have less := (le_iff_size hy hx).mp h
  cases x with
  | nan => exact absurd hx le_nan
  | num s a =>
    cases y with
    | nan => exact absurd hy le_nan
    | num t b =>
      rw [num_nonneg_iff] at hx hy
      simp only [size] at less
      rw [num_sub_num, num_add_num]
      cases s with
      | false =>
        cases t with
        | false =>
          by_cases infinite : a.val = ⊤ ∧ b.val = ⊤
          · exact .inl ⟨by simp [infinite], infinite⟩
          · right
            by_cases some : b.val < a.val
            · simp [num_nonneg_iff, size, infinite, some]
            · have same : a.val = b.val := le_antisymm (not_lt.mp some) less
              rw [same] at infinite ⊢
              simp only [and_self] at infinite
              simp [num_nonneg_iff, size, same, infinite]
        | true => simp [num_nonneg_iff, size, hy rfl]
      | true =>
        have none : a.val = 0 := hx rfl
        have none' : b.val = 0 := by simpa [none] using less
        cases t with
        | false => simp [num_nonneg_iff, size, none, none']
        | true => simp [num_nonneg_iff, size, none, none']

/-- The quotient of a number that is not negative by a positive one, undefined for two infinite
ones. -/
theorem div_cases (hx : 0 ≤ x) (hy : 0 < y) :
    (x / y = nan ∧ x.size = ⊤ ∧ y.size = ⊤) ∨
      (0 ≤ x / y ∧ (x / y).size = R.round (x.size / y.size)) := by
  obtain ⟨b, rfl, positive⟩ := exists_num_of_pos hy
  cases x with
  | nan => exact absurd hx le_nan
  | num s a =>
    rw [num_nonneg_iff] at hx
    rw [num_div_num]
    split_ifs with special
    · exact .inl ⟨rfl, special.resolve_left fun zero => positive zero.2⟩
    · right
      refine ⟨num_nonneg_iff.mpr ?_, rfl⟩
      intro negative
      rw [R.fit_val, hx (by simpa using negative)]
      simp

/-! ## Amounts -/

/-- A number that is undefined or not negative. -/
def IsAmount (x : Rounded R) : Prop := x = nan ∨ 0 ≤ x

theorem isAmount_nan : (nan : Rounded R).IsAmount := .inl rfl

theorem isAmount_of_nonneg (h : 0 ≤ x) : x.IsAmount := .inr h

/-- An amount that a comparison tells not to be at most zero is undefined or positive. -/
theorem isAmount_of_not_nonpos (h : ¬ x ≤ 0) : x.IsAmount := by
  by_cases defined : x = nan
  · exact .inl defined
  · exact .inr (le_of_lt ((not_le_iff defined zero_ne_nan).mp h))

theorem IsAmount.nonneg (h : x.IsAmount) (defined : x ≠ nan) : 0 ≤ x := h.resolve_left defined

theorem IsAmount.add (hx : x.IsAmount) (hy : y.IsAmount) : (x + y).IsAmount := by
  rcases hx with rfl | hx
  · exact .inl nan_add
  · rcases hy with rfl | hy
    · exact .inl add_nan
    · exact .inr (add_nonneg hx hy).1

theorem IsAmount.mul (hx : x.IsAmount) (hy : y.IsAmount) : (x * y).IsAmount := by
  rcases hx with rfl | hx
  · exact .inl nan_mul
  · rcases hy with rfl | hy
    · exact .inl mul_nan
    · rcases mul_cases hx hy with ⟨undefined, _⟩ | ⟨nonneg, _⟩
      · exact .inl undefined
      · exact .inr nonneg

theorem IsAmount.div (hx : x.IsAmount) (hy : 0 < y) : (x / y).IsAmount := by
  rcases hx with rfl | hx
  · exact .inl nan_div
  · rcases div_cases hx hy with ⟨undefined, _⟩ | ⟨nonneg, _⟩
    · exact .inl undefined
    · exact .inr nonneg

/-- A quotient by a positive finite number is defined. -/
theorem div_ne_nan (hx : x ≠ nan) (hy : 0 < y) (finite : isFinite y = true) : x / y ≠ nan := by
  have positive := (pos_iff_size (le_of_lt hy)).mp hy
  have bounded := (isFinite_iff.mp finite).2
  cases x with
  | nan => exact absurd rfl hx
  | num s a =>
    cases y with
    | nan => exact absurd hy lt_nan
    | num t b =>
      simp only [size] at positive bounded
      rw [num_div_num, if_neg (by simp [positive, bounded])]
      exact num_ne_nan

/-! ## Bounds -/

/-- A number below a finite one is finite. -/
theorem isFinite_of_le (hx : 0 ≤ x) (h : x ≤ y) (finite : isFinite y = true) :
    isFinite x = true := by
  rw [isFinite_iff] at finite ⊢
  have less := (le_iff_size hx (le_trans hx h)).mp h
  exact ⟨(ne_nan_of_le h).1, ne_top_of_le_ne_top finite.2 less⟩

theorem ne_nan_of_isFinite (h : isFinite x = true) : x ≠ nan := (isFinite_iff.mp h).1

theorem le_add_right (hx : 0 ≤ x) (hy : 0 ≤ y) : x ≤ x + y := by
  obtain ⟨nonneg, size⟩ := add_nonneg hx hy
  rw [le_iff_size hx nonneg, size, ← round_size x]
  exact R.monotone (by rw [round_size]; exact le_self_add)

theorem le_add_left (hx : 0 ≤ x) (hy : 0 ≤ y) : y ≤ x + y := by
  obtain ⟨nonneg, size⟩ := add_nonneg hx hy
  rw [le_iff_size hy nonneg, size, ← round_size y]
  exact R.monotone (by rw [round_size]; exact le_add_self)

/-- A share of a finite amount is at most the whole. -/
theorem mul_mem (hx : 0 ≤ x) (finite : isFinite x = true) (hy : 0 ≤ y) (share : y ≤ 1) :
    0 ≤ x * y ∧ x * y ≤ x := by
  have whole : y.size ≤ 1 := by simpa using (le_iff_size hy zero_le_one).mp share
  rcases mul_cases hx hy with ⟨_, ⟨_, infinite⟩ | ⟨infinite, _⟩⟩ | ⟨nonneg, size⟩
  · simp [infinite] at whole
  · exact absurd infinite (isFinite_iff.mp finite).2
  · refine ⟨nonneg, ?_⟩
    rw [le_iff_size nonneg hx, size, ← round_size x]
    refine R.monotone ?_
    rw [round_size]
    exact mul_le_of_le_one_right' whole

/-- A share of a share is a share. -/
theorem mul_le_one (hx : 0 ≤ x) (hx1 : x ≤ 1) (hy : 0 ≤ y) (hy1 : y ≤ 1) :
    0 ≤ x * y ∧ x * y ≤ 1 := by
  have finite : isFinite x = true :=
    isFinite_of_le hx hx1 (isFinite_iff.mpr ⟨one_ne_nan, by simp⟩)
  obtain ⟨nonneg, less⟩ := mul_mem hx finite hy hy1
  exact ⟨nonneg, le_trans less hx1⟩

/-- A finite number over one that is not less is a share. -/
theorem div_mem (hx : 0 ≤ x) (hxy : x ≤ y) (hy : 0 < y) (finite : isFinite x = true) :
    0 ≤ x / y ∧ x / y ≤ 1 := by
  rcases div_cases hx hy with ⟨_, infinite, _⟩ | ⟨nonneg, size⟩
  · exact absurd infinite (isFinite_iff.mp finite).2
  · refine ⟨nonneg, ?_⟩
    rw [le_iff_size nonneg zero_le_one, size, size_one, ← R.round_one]
    have less : x.size ≤ 1 * y.size := by simpa using (le_iff_size hx (le_of_lt hy)).mp hxy
    exact R.monotone (ENNReal.div_le_of_le_mul less)

/-! ## The greater number, clamps -/

theorem fmax_eq (defined : y ≠ nan) : fmax x y = if y < x then x else y := by
  have compares : isNaN y = false := by rwa [← Bool.not_eq_true, isNaN_iff]
  simp [fmax, compares]

/-- The greater of two numbers is at least the second, when that is defined. -/
theorem le_fmax (defined : y ≠ nan) : y ≤ fmax x y := by
  rw [fmax_eq defined]
  split_ifs with greater
  · exact le_of_lt greater
  · exact le_self defined

theorem clamp_mem {lo hi : Rounded R} (ordered : lo ≤ hi) (defined : x ≠ nan) :
    lo ≤ clamp x lo hi ∧ clamp x lo hi ≤ hi := by
  obtain ⟨hlo, hhi⟩ := ne_nan_of_le ordered
  simp only [clamp]
  split_ifs with below above
  · exact ⟨le_self hlo, ordered⟩
  · exact ⟨ordered, le_self hhi⟩
  · exact ⟨(not_lt_iff defined hlo).mp below, (not_lt_iff hhi defined).mp above⟩

@[simp] theorem clamp_nan {lo hi : Rounded R} : clamp nan lo hi = nan := by simp [clamp]

/-- What is left of a bin that gave what it was asked for is undefined or not negative. -/
theorem isAmount_left (kg : Rounded R) (h : 0 ≤ x) : (x - clamp kg 0 x).IsAmount := by
  by_cases defined : kg = nan
  · rw [defined, clamp_nan]
    exact .inl sub_nan
  · obtain ⟨nonneg, covered⟩ := clamp_mem h defined
    rcases sub_cases nonneg covered with ⟨undefined, _⟩ | ⟨left, _⟩
    · exact .inl undefined
    · exact .inr left

/-- What is left of a bin that was asked for a finite mass is not negative. -/
theorem left_nonneg {kg : Rounded R} (h : 0 ≤ x) (asked : 0 ≤ kg) (finite : isFinite kg = true) :
    0 ≤ x - clamp kg 0 x := by
  obtain ⟨nonneg, covered⟩ := clamp_mem h (ne_nan_of_le asked).2
  have given : clamp kg 0 x ≤ kg := by
    simp only [clamp]
    split_ifs with below above
    · exact asked
    · exact le_of_lt above
    · exact le_self (ne_nan_of_le asked).2
  have bounded := isFinite_iff.mp (isFinite_of_le nonneg given finite)
  rcases sub_cases nonneg covered with ⟨_, _, infinite⟩ | ⟨left, _⟩
  · exact absurd infinite bounded.2
  · exact left

/-! ## Sums -/

private theorem foldl_nonneg {acc : Rounded R} (hacc : acc.IsAmount) {xs : List (Rounded R)}
    (amounts : ∀ x ∈ xs, x.IsAmount) (finite : isFinite (xs.foldl (· + ·) acc) = true) :
    (0 ≤ acc ∧ acc ≤ xs.foldl (· + ·) acc) ∧ ∀ x ∈ xs, 0 ≤ x ∧ x ≤ xs.foldl (· + ·) acc := by
  induction xs generalizing acc with
  | nil =>
    have nonneg := hacc.nonneg (ne_nan_of_isFinite finite)
    exact ⟨⟨nonneg, le_self (ne_nan_of_le nonneg).2⟩, by simp⟩
  | cons x xs ih =>
    simp only [List.mem_cons, forall_eq_or_imp] at amounts ⊢
    obtain ⟨⟨nonneg, less⟩, rest⟩ := ih (hacc.add amounts.1) amounts.2 finite
    have defined := (ne_nan_of_le nonneg).2
    have hacc : 0 ≤ acc := hacc.nonneg fun undefined => defined (by rw [undefined, nan_add])
    have hx : 0 ≤ x := amounts.1.nonneg fun undefined => defined (by rw [undefined, add_nan])
    exact ⟨⟨hacc, le_trans (le_add_right hacc hx) less⟩,
      ⟨hx, le_trans (le_add_left hacc hx) less⟩, rest⟩

/-- The terms of a finite sum of amounts are defined and at most the sum. -/
theorem sum_mem {xs : List (Rounded R)} (amounts : ∀ x ∈ xs, x.IsAmount)
    (finite : isFinite (sum xs) = true) : ∀ x ∈ xs, 0 ≤ x ∧ x ≤ sum xs :=
  (foldl_nonneg (isAmount_of_nonneg (le_self zero_ne_nan)) amounts finite).2

/-! ## Infinity -/

/-- Positive infinity. -/
structure IsInfinite (x : Rounded R) : Prop where
  nonneg : 0 ≤ x
  size : x.size = ⊤

namespace IsInfinite

theorem pos (h : x.IsInfinite) : 0 < x := by
  rw [pos_iff_size h.nonneg, h.size]
  exact ENNReal.top_ne_zero

theorem not_le_zero (h : x.IsInfinite) : ¬ x ≤ 0 :=
  (not_le_iff (ne_nan_of_lt h.pos).2 zero_ne_nan).mpr h.pos

theorem isFinite_eq_false (h : x.IsInfinite) : isFinite x = false := by
  rw [← Bool.not_eq_true, isFinite_iff]
  exact fun finite => finite.2 h.size

theorem mul (hx : x.IsInfinite) (hy : 0 < y) : (x * y).IsInfinite := by
  have positive := (pos_iff_size (le_of_lt hy)).mp hy
  rcases mul_cases hx.nonneg (le_of_lt hy) with ⟨_, ⟨zero, _⟩ | ⟨_, zero⟩⟩ | ⟨nonneg, size⟩
  · exact absurd (hx.size ▸ zero) ENNReal.top_ne_zero
  · exact absurd zero positive
  · exact ⟨nonneg, by rw [size, hx.size, ENNReal.top_mul positive, R.round_top]⟩

theorem div (hx : x.IsInfinite) (hy : 0 < y) (finite : isFinite y = true) :
    (x / y).IsInfinite := by
  have bounded := (isFinite_iff.mp finite).2
  rcases div_cases hx.nonneg hy with ⟨_, _, infinite⟩ | ⟨nonneg, size⟩
  · exact absurd infinite bounded
  · exact ⟨nonneg, by rw [size, hx.size, ENNReal.top_div_of_ne_top bounded, R.round_top]⟩

end IsInfinite

/-! ## Numbers without bound -/

theorem not_isFinite_iff : isFinite x = false ↔ x = nan ∨ x.size = ⊤ := by
  rw [← Bool.not_eq_true, isFinite_iff]
  tauto

/-- A sum with an unbounded number is unbounded. -/
theorem add_unbounded (h : isFinite x = false ∨ isFinite y = false) : isFinite (x + y) = false := by
  cases x with
  | nan => rfl
  | num s a =>
    cases y with
    | nan => rw [add_nan]; rfl
    | num t b =>
      have infinite : a.val = ⊤ ∨ b.val = ⊤ := by simpa [isFinite] using h
      rw [num_add_num]
      split_ifs with same both left right
      · rcases infinite with top | top
        · simp [isFinite, top]
        · simp [isFinite, top]
      · rfl
      · have finite : b.val ≠ ⊤ := left.ne_top
        simp [isFinite, infinite.resolve_right finite, finite]
      · have finite : a.val ≠ ⊤ := right.ne_top
        simp [isFinite, infinite.resolve_left finite, finite]
      · have equal : a.val = b.val := le_antisymm (not_lt.mp left) (not_lt.mp right)
        exact absurd (by simpa [equal] using infinite) both

/-- A difference with an unbounded number is unbounded. -/
theorem sub_unbounded (h : isFinite x = false ∨ isFinite y = false) :
    isFinite (x - y) = false := by
  have opposite : isFinite (-y) = isFinite y := by cases y <;> rfl
  exact add_unbounded (y := -y) (opposite ▸ h)

/-- A product with an unbounded number is unbounded. -/
theorem mul_unbounded (h : isFinite x = false) : isFinite (x * y) = false := by
  cases x with
  | nan => rfl
  | num s a =>
    cases y with
    | nan => rw [mul_nan]; rfl
    | num t b =>
      have top : a.val = ⊤ := by simpa [isFinite] using h
      rw [num_mul_num]
      split_ifs with special
      · rfl
      · have some : b.val ≠ 0 := fun zero => special (.inr ⟨top, zero⟩)
        simp [isFinite, top, some]

private theorem foldl_unbounded {xs : List (Rounded R)} {acc : Rounded R}
    (h : isFinite acc = false ∨ ∃ x ∈ xs, isFinite x = false) :
    isFinite (xs.foldl (· + ·) acc) = false := by
  induction xs generalizing acc with
  | nil => simpa using h
  | cons x xs ih =>
    simp only [List.exists_mem_cons_iff] at h
    refine ih ?_
    rcases h with start | first | later
    · exact .inl (add_unbounded (.inl start))
    · exact .inl (add_unbounded (.inr first))
    · exact .inr later

/-- A sum with an unbounded term is unbounded. -/
theorem sum_unbounded {xs : List (Rounded R)} (h : ∃ x ∈ xs, isFinite x = false) :
    isFinite (sum xs) = false :=
  foldl_unbounded (.inr h)

end DebrisDisk.Rounded
