import Mathlib
import DebrisDisk.Proofs.Construction

/-!
# Interpolation

Surface temperatures, vapor pressures and supply rates are read from tables. A table of ascending
knots has one interpolant: the continuous function that takes the value of every knot, is affine
between neighbouring knots and constant beyond the ends. In exact arithmetic all three lookups
compute it.

Neighbouring knots are the infixes `[k, k']` of a table. What holds between all neighbours of a part
of the table, and is kept where two intervals meet, holds over the whole part: continuity and
monotony are such properties.

## Main definitions

* `Table.IsTable`, `Table.IsInterpolant`: ascending knots, and what a lookup is to compute.
* `Table.segment?`: the neighbours by whose distance a lookup divides.
* `Table.IsLookup`: one function that all three lookups compute, and what follows for it.

## Main results

* `Table.lt_partitionPoint_iff`: the halving search finds the border.
* `Table.isInterpolant_interpolate`, `Table.IsInterpolant.unique`: the lookup is the interpolant.
* `Table.lookups_interpolate`: every table of ascending knots, and every table that is accepted.
-/

namespace DebrisDisk
open Scalar

namespace Table

/-! ## The halving search -/

/-- The search counts the entries with the property where none of them stands behind one without
it. -/
theorem lt_partitionPoint_iff {β : Type} {p : β → Bool} {xs : List β}
    (sorted : xs.Pairwise fun a b => p b = true → p a = true) {j : ℕ} :
    j < partitionPoint p xs ↔ ∃ y, xs[j]? = some y ∧ p y = true := by
  induction xs using partitionPoint.induct p generalizing j with
  | case1 xs several half holds ih =>
    rw [partitionPoint, dif_pos several, if_pos holds]
    change j < half + partitionPoint p (xs.drop half) ↔ _
    by_cases first : j < half
    · have inside : j < xs.length := by omega
      have earlier : p xs[j] = true :=
        List.pairwise_iff_getElem.mp sorted j half inside (by omega) first holds
      exact iff_of_true (by omega) ⟨xs[j], List.getElem?_eq_getElem inside, earlier⟩
    · have rest := ih (sorted.sublist (List.drop_sublist _ _)) (j := j - half)
      rw [List.getElem?_drop, show half + (j - half) = j by omega] at rest
      rw [← rest]
      omega
  | case2 xs several half fails ih =>
    rw [partitionPoint, dif_pos several, if_neg fails,
      ih (sorted.sublist (List.take_sublist _ _)), List.getElem?_take]
    by_cases first : j < xs.length - half
    · rw [if_pos first]
    · rw [if_neg first]
      refine iff_of_false (by simp) ?_
      rintro ⟨y, found, holds⟩
      obtain ⟨inside, rfl⟩ := List.getElem?_eq_some_iff.mp found
      rcases (show half ≤ j by omega).eq_or_lt with rfl | later
      · exact fails holds
      · exact fails (List.pairwise_iff_getElem.mp sorted half j (by omega) inside later holds)
  | case3 single => simp [partitionPoint]
  | case4 x rest single holds =>
    have alone : rest = [] := by simpa using single
    subst alone
    cases j <;> simp [partitionPoint, holds]
  | case5 x rest single fails =>
    have alone : rest = [] := by simpa using single
    subst alone
    cases j <;> simp [partitionPoint, fails]

theorem descends_eq_false_iff {xs : List ℝ} : descends xs = false ↔ xs.Pairwise (· < ·) := by
  rw [← List.isChain_iff_pairwise]
  induction xs with
  | nil => simp [descends]
  | cons x rest ih =>
    cases rest with
    | nil => simp [descends]
    | cons y rest =>
      rw [List.isChain_cons_cons, ← ih]
      simp [descends]

/-! ## Tables of ascending knots -/

/-- There is a knot, and the knots ascend. -/
structure IsTable (knots : List (ℝ × ℝ)) : Prop where
  nonempty : knots ≠ []
  ascending : knots.Pairwise fun k k' => k.1 < k'.1

theorem IsTable.lt_of_next {knots : List (ℝ × ℝ)} (table : IsTable knots) {k k' : ℝ × ℝ}
    (next : [k, k'] <:+: knots) : k.1 < k'.1 := by
  simpa using table.ascending.sublist next.sublist

/-- Where a number lies in a table. -/
inductive Place (knots : List (ℝ × ℝ)) (x : ℝ) : Prop where
  | before (k : ℝ × ℝ) (first : knots.head? = some k) (le : x ≤ k.1)
  | between (k k' : ℝ × ℝ) (next : [k, k'] <:+: knots) (mem : x ∈ Set.Icc k.1 k'.1)
  | after (k : ℝ × ℝ) (last : knots.getLast? = some k) (le : k.1 ≤ x)

/-- Every number has a place in a table. -/
theorem IsTable.place {knots : List (ℝ × ℝ)} (table : IsTable knots) (x : ℝ) : Place knots x := by
  have nonempty := table.nonempty
  clear table
  induction knots with
  | nil => exact absurd rfl nonempty
  | cons k rest ih =>
    cases rest with
    | nil =>
      rcases le_total x k.1 with le | le
      · exact .before k rfl le
      · exact .after k rfl le
    | cons k' rest =>
      rcases le_total x k.1 with le | ge
      · exact .before k rfl le
      · cases ih (List.cons_ne_nil _ _) with
        | before first head le =>
          obtain rfl : k' = first := by simpa using head
          exact .between k k' ⟨[], rest, rfl⟩ ⟨ge, le⟩
        | between a b next mem => exact .between a b (next.trans (List.suffix_cons _ _).isInfix) mem
        | after last tail le => exact .after last (by simpa using tail) le

/-- What holds between neighbours, and is kept where two intervals meet, holds from the first knot
to the last. -/
theorem span_induction {P : ℝ → ℝ → Prop} (refl : ∀ a, P a a)
    (trans : ∀ a b c, a ≤ b → b ≤ c → P a b → P b c → P a c) {knots : List (ℝ × ℝ)}
    (ascending : knots.Pairwise fun k k' => k.1 < k'.1)
    (next : ∀ k k', [k, k'] <:+: knots → P k.1 k'.1) {first last : ℝ × ℝ}
    (head : knots.head? = some first) (tail : knots.getLast? = some last) : P first.1 last.1 := by
  induction knots generalizing first with
  | nil => simp at head
  | cons k rest ih =>
    obtain rfl : k = first := by simpa using head
    cases rest with
    | nil =>
      obtain rfl : k = last := by simpa using tail
      exact refl _
    | cons k' rest =>
      have later : (k' :: rest).Pairwise fun k k' => k.1 < k'.1 := ascending.of_cons
      have rises : k.1 < k'.1 := List.rel_of_pairwise_cons ascending List.mem_cons_self
      have tail' : (k' :: rest).getLast? = some last := by simpa using tail
      have ends : k'.1 ≤ last.1 := by
        rcases List.mem_cons.mp (List.mem_of_getLast? tail') with rfl | mem
        · exact le_rfl
        · exact (List.rel_of_pairwise_cons later mem).le
      exact trans _ _ _ rises.le ends (next k k' ⟨[], rest, rfl⟩)
        (ih later (fun a b inside => next a b (inside.trans (List.suffix_cons _ _).isInfix)) rfl
          tail')

/-! ## The interpolant -/

/-- The function is continuous, takes the value of every knot, is affine between neighbours and
constant beyond the ends. -/
structure IsInterpolant (knots : List (ℝ × ℝ)) (f : ℝ → ℝ) : Prop where
  continuous : Continuous f
  knot : ∀ k ∈ knots, f k.1 = k.2
  affine : ∀ k k', [k, k'] <:+: knots → ∃ a b, ∀ x ∈ Set.Icc k.1 k'.1, f x = a + b * x
  before : ∀ k, knots.head? = some k → ∀ x ≤ k.1, f x = f k.1
  after : ∀ k, knots.getLast? = some k → ∀ x, k.1 ≤ x → f x = f k.1

namespace IsInterpolant
variable {knots : List (ℝ × ℝ)} {f g : ℝ → ℝ} {k k' : ℝ × ℝ}

/-- Between neighbours the function rises by the slope of the two knots. -/
theorem sub_eq (h : IsInterpolant knots f) (table : IsTable knots) (next : [k, k'] <:+: knots)
    {x y : ℝ} (hx : x ∈ Set.Icc k.1 k'.1) (hy : y ∈ Set.Icc k.1 k'.1) :
    f y - f x = (k'.2 - k.2) / (k'.1 - k.1) * (y - x) := by
  have rises := table.lt_of_next next
  obtain ⟨a, b, line⟩ := h.affine k k' next
  have left : k.2 = a + b * k.1 := by
    rw [← h.knot k (next.subset (by simp)), line _ ⟨le_rfl, rises.le⟩]
  have right : k'.2 = a + b * k'.1 := by
    rw [← h.knot k' (next.subset (by simp)), line _ ⟨rises.le, le_rfl⟩]
  have slope : (k'.2 - k.2) / (k'.1 - k.1) = b := by
    rw [div_eq_iff (sub_pos.mpr rises).ne', left, right]
    ring
  rw [line x hx, line y hy, slope]
  ring

/-- Between neighbours the function is a line through the two knots. -/
theorem eq_line (h : IsInterpolant knots f) (table : IsTable knots) (next : [k, k'] <:+: knots)
    {x : ℝ} (hx : x ∈ Set.Icc k.1 k'.1) :
    f x = k.2 + (k'.2 - k.2) / (k'.1 - k.1) * (x - k.1) := by
  rw [← h.sub_eq table next ⟨le_rfl, (table.lt_of_next next).le⟩ hx,
    h.knot k (next.subset (by simp))]
  ring

theorem eq_of_before (h : IsInterpolant knots f) (first : knots.head? = some k) {x : ℝ}
    (le : x ≤ k.1) : f x = k.2 :=
  (h.before k first x le).trans (h.knot k (List.mem_of_head? first))

theorem eq_of_after (h : IsInterpolant knots f) (last : knots.getLast? = some k) {x : ℝ}
    (le : k.1 ≤ x) : f x = k.2 :=
  (h.after k last x le).trans (h.knot k (List.mem_of_getLast? last))

/-- A table has one interpolant. -/
theorem unique (h : IsInterpolant knots f) (h' : IsInterpolant knots g) (table : IsTable knots) :
    f = g := by
  ext x
  cases table.place x with
  | before k first le => rw [h.eq_of_before first le, h'.eq_of_before first le]
  | between k k' next mem => rw [h.eq_line table next mem, h'.eq_line table next mem]
  | after k last le => rw [h.eq_of_after last le, h'.eq_of_after last le]

/-- Where the values rise in a direction, the function does. -/
theorem monotoneOn_mul_next (h : IsInterpolant knots f) (table : IsTable knots) (c : ℝ)
    (next : [k, k'] <:+: knots) (rising : c * k.2 ≤ c * k'.2) :
    MonotoneOn (fun x => c * f x) (Set.Icc k.1 k'.1) := by
  intro x hx y hy less
  have slope : 0 ≤ (c * k'.2 - c * k.2) / (k'.1 - k.1) :=
    div_nonneg (sub_nonneg.mpr rising) (sub_nonneg.mpr (table.lt_of_next next).le)
  have difference : c * f y - c * f x = (c * k'.2 - c * k.2) / (k'.1 - k.1) * (y - x) := by
    rw [← mul_sub, h.sub_eq table next hx hy]
    ring
  have grows := mul_nonneg slope (sub_nonneg.mpr less)
  rw [← difference] at grows
  exact sub_nonneg.mp grows

theorem monotoneOn_mul (h : IsInterpolant knots f) (table : IsTable knots) (c : ℝ)
    {part : List (ℝ × ℝ)} (inside : part <:+: knots)
    (rising : part.Pairwise fun k k' => c * k.2 ≤ c * k'.2)
    (first : part.head? = some k) (last : part.getLast? = some k') :
    MonotoneOn (fun x => c * f x) (Set.Icc k.1 k'.1) := by
  refine span_induction (P := fun a b => MonotoneOn (fun x => c * f x) (Set.Icc a b))
    (fun a => by simp) ?_ (table.ascending.sublist inside.sublist) ?_ first last
  · intro a b c ab bc low high
    rw [← Set.Icc_union_Icc_eq_Icc ab bc]
    exact low.union_right high (isGreatest_Icc ab) (isLeast_Icc bc)
  · intro a b next
    exact h.monotoneOn_mul_next table c (next.trans inside)
      (by simpa using rising.sublist next.sublist)

/-- Over a part of a table in which the values rise, the function rises. -/
theorem monotoneOn (h : IsInterpolant knots f) (table : IsTable knots) {part : List (ℝ × ℝ)}
    (inside : part <:+: knots) (rising : part.Pairwise fun k k' => k.2 ≤ k'.2)
    (first : part.head? = some k) (last : part.getLast? = some k') :
    MonotoneOn f (Set.Icc k.1 k'.1) := by
  simpa using h.monotoneOn_mul table 1 inside (by simpa using rising) first last

/-- Over a part of a table in which the values fall, the function falls. -/
theorem antitoneOn (h : IsInterpolant knots f) (table : IsTable knots) {part : List (ℝ × ℝ)}
    (inside : part <:+: knots) (falling : part.Pairwise fun k k' => k'.2 ≤ k.2)
    (first : part.head? = some k) (last : part.getLast? = some k') :
    AntitoneOn f (Set.Icc k.1 k'.1) := by
  have mirrored := h.monotoneOn_mul table (-1) inside (by simpa using falling) first last
  simpa using mirrored.neg

/-- A value between neighbours lies between theirs. -/
theorem mem_uIcc (h : IsInterpolant knots f) (table : IsTable knots) (next : [k, k'] <:+: knots)
    {x : ℝ} (hx : x ∈ Set.Icc k.1 k'.1) : f x ∈ Set.uIcc k.2 k'.2 := by
  have rises := (table.lt_of_next next).le
  have left : f k.1 = k.2 := h.knot k (next.subset (by simp))
  have right : f k'.1 = k'.2 := h.knot k' (next.subset (by simp))
  rw [← left, ← right]
  rcases le_total k.2 k'.2 with rising | falling
  · have mono := h.monotoneOn table next (by simpa using rising) rfl rfl
    exact Set.Icc_subset_uIcc ⟨mono ⟨le_rfl, rises⟩ hx hx.1, mono hx ⟨rises, le_rfl⟩ hx.2⟩
  · have anti := h.antitoneOn table next (by simpa using falling) rfl rfl
    exact Set.Icc_subset_uIcc' ⟨anti hx ⟨rises, le_rfl⟩ hx.2, anti ⟨le_rfl, rises⟩ hx hx.1⟩

/-- An interval that holds the values of all knots holds all values. -/
theorem mem_of_knots (h : IsInterpolant knots f) (table : IsTable knots) {s : Set ℝ}
    (interval : s.OrdConnected) (values : ∀ k ∈ knots, k.2 ∈ s) (x : ℝ) : f x ∈ s := by
  cases table.place x with
  | before k first le =>
    rw [h.eq_of_before first le]
    exact values k (List.mem_of_head? first)
  | between k k' next mem =>
    have first : k ∈ knots := next.subset (by simp)
    have second : k' ∈ knots := next.subset (by simp)
    exact interval.uIcc_subset (values k first) (values k' second) (h.mem_uIcc table next mem)
  | after k last le =>
    rw [h.eq_of_after last le]
    exact values k (List.mem_of_getLast? last)

end IsInterpolant

/-! ## The lookup -/

/-- The neighbours between which the table is interpolated at a number, if there are any. -/
def segment? {α : Type} [Scalar α] (knots : List (α × α)) (x : α) : Option ((α × α) × (α × α)) :=
  match partitionPoint (fun k => decide (k.1 ≤ x)) knots with
  | 0 => none
  | j + 1 => knots[j]?.bind fun k => knots[j + 1]?.map fun k' => (k, k')

theorem interpolate_of_segment {knots : List (ℝ × ℝ)} {k k' : ℝ × ℝ} {x : ℝ}
    (found : segment? knots x = some (k, k')) :
    interpolate knots x = k.2 + (k'.2 - k.2) * (x - k.1) / (k'.1 - k.1) := by
  cases count : partitionPoint (fun k => decide (k.1 ≤ x)) knots with
  | zero => simp [segment?, count] at found
  | succ j =>
    simp only [segment?, count, Option.bind_eq_some_iff, Option.map_eq_some_iff,
      Prod.mk.injEq] at found
    obtain ⟨_, left, _, right, rfl, rfl⟩ := found
    simp only [interpolate, count, left, right]

/-- Neighbours stand at consecutive places. -/
theorem next_iff {knots : List (ℝ × ℝ)} {k k' : ℝ × ℝ} :
    [k, k'] <:+: knots ↔ ∃ j : ℕ, knots[j]? = some k ∧ knots[j + 1]? = some k' := by
  rw [List.infix_iff_getElem?]
  constructor
  · rintro ⟨j, _, found⟩
    refine ⟨j, ?_, ?_⟩
    · simpa using found 0 (by simp)
    · simpa [add_comm] using found 1 (by simp)
  · rintro ⟨j, left, right⟩
    have inside : j + 1 < knots.length := (List.getElem?_eq_some_iff.mp right).1
    refine ⟨j, by simp only [List.length_cons, List.length_nil]; omega, ?_⟩
    intro i hi
    obtain rfl | rfl : i = 0 ∨ i = 1 := by
      simp only [List.length_cons, List.length_nil] at hi
      omega
    · simpa using left
    · simpa [add_comm] using right

namespace IsTable
variable {knots : List (ℝ × ℝ)} {k k' : ℝ × ℝ} {x : ℝ} (table : IsTable knots)
include table

/-- The search counts the knots that are not beyond a number. -/
theorem lt_partitionPoint_iff {j : ℕ} :
    j < partitionPoint (fun k => decide (k.1 ≤ x)) knots ↔ ∃ k, knots[j]? = some k ∧ k.1 ≤ x := by
  have sorted : knots.Pairwise fun k k' =>
      decide (k'.1 ≤ x) = true → decide (k.1 ≤ x) = true :=
    table.ascending.imp fun rises => by
      simp only [decide_eq_true_eq]
      exact rises.le.trans
  rw [Table.lt_partitionPoint_iff sorted]
  simp only [decide_eq_true_eq]

/-- The segment of a number is that of the neighbours that enclose it. -/
theorem segment?_eq_some_iff :
    segment? knots x = some (k, k') ↔ [k, k'] <:+: knots ∧ x ∈ Set.Ico k.1 k'.1 := by
  constructor
  · intro found
    cases count : partitionPoint (fun k => decide (k.1 ≤ x)) knots with
    | zero => simp [segment?, count] at found
    | succ j =>
      simp only [segment?, count, Option.bind_eq_some_iff, Option.map_eq_some_iff,
        Prod.mk.injEq] at found
      obtain ⟨k, left, k', right, rfl, rfl⟩ := found
      have counted : j < partitionPoint (fun k => decide (k.1 ≤ x)) knots := by omega
      obtain ⟨a, same, low⟩ := table.lt_partitionPoint_iff.mp counted
      obtain rfl : a = k := by simpa [left] using same.symm
      refine ⟨next_iff.mpr ⟨j, left, right⟩, low, lt_of_not_ge fun high => ?_⟩
      exact absurd (table.lt_partitionPoint_iff.mpr ⟨k', right, high⟩) (by omega)
  · rintro ⟨next, low, high⟩
    obtain ⟨j, left, right⟩ := next_iff.mp next
    have atLeast := table.lt_partitionPoint_iff.mpr ⟨k, left, low⟩
    have atMost : ¬ j + 1 < partitionPoint (fun k => decide (k.1 ≤ x)) knots := by
      rw [table.lt_partitionPoint_iff]
      rintro ⟨a, same, below⟩
      obtain rfl : a = k' := by simpa [right] using same.symm
      exact below.not_gt high
    have count : partitionPoint (fun k => decide (k.1 ≤ x)) knots = j + 1 := by omega
    simp only [segment?, count, left, right, Option.bind_some, Option.map_some]

theorem interpolate_between (next : [k, k'] <:+: knots) (mem : x ∈ Set.Ico k.1 k'.1) :
    interpolate knots x = k.2 + (k'.2 - k.2) * (x - k.1) / (k'.1 - k.1) :=
  interpolate_of_segment (table.segment?_eq_some_iff.mpr ⟨next, mem⟩)

theorem interpolate_before (first : knots.head? = some k) (beyond : x < k.1) :
    interpolate knots x = k.2 := by
  have none : partitionPoint (fun k => decide (k.1 ≤ x)) knots = 0 := by
    refine Nat.eq_zero_of_not_pos ?_
    rw [table.lt_partitionPoint_iff, ← List.head?_eq_getElem?]
    rintro ⟨a, same, below⟩
    obtain rfl : a = k := by simpa [first] using same.symm
    exact below.not_gt beyond
  simp only [interpolate, none, first, Option.map_some, Option.getD_some]

theorem interpolate_after (last : knots.getLast? = some k) (beyond : k.1 ≤ x) :
    interpolate knots x = k.2 := by
  have tail : knots[knots.length - 1]? = some k := by rw [← List.getLast?_eq_getElem?, last]
  have all := table.lt_partitionPoint_iff.mpr ⟨k, tail, beyond⟩
  simp only [interpolate]
  split
  · omega
  · rename_i j count
    have out : knots[j + 1]? = none := List.getElem?_eq_none (by omega)
    rw [out, last]
    cases knots[j]? <;> rfl

omit table in
/-- A knot has a neighbour behind it, or is the last. -/
theorem next_or_last (mem : k ∈ knots) :
    (∃ k', [k, k'] <:+: knots) ∨ knots.getLast? = some k := by
  obtain ⟨j, found⟩ := List.mem_iff_getElem?.mp mem
  cases behind : knots[j + 1]? with
  | some k' => exact .inl ⟨k', next_iff.mpr ⟨j, found, behind⟩⟩
  | none =>
    have inside := (List.getElem?_eq_some_iff.mp found).1
    have out := List.getElem?_eq_none_iff.mp behind
    right
    rw [List.getLast?_eq_getElem?, show knots.length - 1 = j by omega, found]

theorem interpolate_knot (mem : k ∈ knots) : interpolate knots k.1 = k.2 := by
  rcases next_or_last mem with ⟨k', next⟩ | last
  · rw [table.interpolate_between next ⟨le_rfl, table.lt_of_next next⟩]
    simp
  · exact table.interpolate_after last le_rfl

/-- A function that is affine between neighbours and constant beyond the ends is continuous. -/
theorem continuous_of_pieces {f : ℝ → ℝ}
    (affine : ∀ k k', [k, k'] <:+: knots → ∃ a b, ∀ x ∈ Set.Icc k.1 k'.1, f x = a + b * x)
    (before : ∀ k, knots.head? = some k → ∀ x ≤ k.1, f x = f k.1)
    (after : ∀ k, knots.getLast? = some k → ∀ x, k.1 ≤ x → f x = f k.1) : Continuous f := by
  obtain ⟨first, head⟩ : ∃ k, knots.head? = some k :=
    ⟨_, List.head?_eq_some_head table.nonempty⟩
  obtain ⟨last, tail⟩ : ∃ k, knots.getLast? = some k :=
    ⟨_, List.getLast?_eq_some_getLast table.nonempty⟩
  have low : ContinuousOn f (Set.Iic first.1) :=
    continuousOn_const.congr fun x hx => before first head x hx
  have high : ContinuousOn f (Set.Ici last.1) :=
    continuousOn_const.congr fun x hx => after last tail x hx
  have middle : ContinuousOn f (Set.Icc first.1 last.1) := by
    refine span_induction (P := fun a b => ContinuousOn f (Set.Icc a b)) (fun a => by simp) ?_
      table.ascending ?_ head tail
    · intro a b c ab bc left right
      rw [← Set.Icc_union_Icc_eq_Icc ab bc]
      exact left.union_of_isClosed right isClosed_Icc isClosed_Icc
    · intro k k' next
      obtain ⟨a, b, line⟩ := affine k k' next
      exact (by fun_prop : Continuous fun x : ℝ => a + b * x).continuousOn.congr line
  have everywhere : Set.univ ⊆ Set.Iic first.1 ∪ Set.Icc first.1 last.1 ∪ Set.Ici last.1 := by
    intro x _
    rcases le_total x first.1 with below | above
    · exact .inl (.inl below)
    · rcases le_total x last.1 with below | above'
      · exact .inl (.inr ⟨above, below⟩)
      · exact .inr above'
  rw [← continuousOn_univ]
  exact ((low.union_of_isClosed middle isClosed_Iic isClosed_Icc).union_of_isClosed high
    (isClosed_Iic.union isClosed_Icc) isClosed_Ici).mono everywhere

/-- The lookup in a table of ascending knots is the interpolant. -/
theorem isInterpolant_interpolate : IsInterpolant knots (interpolate knots) := by
  have affine : ∀ k k', [k, k'] <:+: knots →
      ∃ a b, ∀ x ∈ Set.Icc k.1 k'.1, interpolate knots x = a + b * x := by
    intro k k' next
    have rises : k'.1 - k.1 ≠ 0 := (sub_pos.mpr (table.lt_of_next next)).ne'
    refine ⟨k.2 - (k'.2 - k.2) / (k'.1 - k.1) * k.1, (k'.2 - k.2) / (k'.1 - k.1), ?_⟩
    intro x hx
    rcases hx.2.eq_or_lt with rfl | inside
    · rw [table.interpolate_knot (next.subset (by simp))]
      field_simp
      ring
    · rw [table.interpolate_between next ⟨hx.1, inside⟩]
      ring
  have before : ∀ k, knots.head? = some k → ∀ x ≤ k.1,
      interpolate knots x = interpolate knots k.1 := by
    intro k first x hx
    rcases hx.eq_or_lt with rfl | beyond
    · rfl
    · rw [table.interpolate_before first beyond,
        table.interpolate_knot (List.mem_of_head? first)]
  have after : ∀ k, knots.getLast? = some k → ∀ x, k.1 ≤ x →
      interpolate knots x = interpolate knots k.1 := by
    intro k last x hx
    rw [table.interpolate_after last hx, table.interpolate_after last le_rfl]
  exact {
    continuous := table.continuous_of_pieces affine before after
    knot := fun k mem => table.interpolate_knot mem
    affine, before, after }

end IsTable

/-! ## The three tables -/

section Rows
variable {α : Type}

/-- The row of a table of surface temperatures. -/
def temperatureRow (k : α × α) : TemperatureRow α := { time := k.1, temperature := k.2 }

/-- The row of a table of vapor pressures. -/
def pressureRow (k : α × α) : PressureRow α := { temperature := k.1, log10Pressure := k.2 }

/-- The row of a supply table. -/
def supplyRow (k : α × α) : SupplyRow α := { time := k.1, rate := k.2 }

end Rows

/-- The knots are accepted as a table of one of the three kinds. -/
inductive IsAccepted (knots : List (ℝ × ℝ)) : Prop where
  | temperatures (passed : TemperatureTable.checkRows (knots.map temperatureRow) = .ok ())
  | pressures (passed : PressureRow.checkRows (knots.map pressureRow) = .ok ())
  | supply (passed : (SupplyHistory.table (knots.map supplyRow)).validate = .ok ())

theorem isTable_of_descends {knots : List (ℝ × ℝ)} (nonempty : knots ≠ [])
    (ascending : descends (knots.map Prod.fst) = false) : IsTable knots where
  nonempty := nonempty
  ascending := List.pairwise_map.mp (descends_eq_false_iff.mp ascending)

/-- The knots of an accepted table ascend. -/
theorem IsAccepted.isTable {knots : List (ℝ × ℝ)} (accepted : IsAccepted knots) :
    IsTable knots := by
  cases accepted with
  | temperatures passed =>
    simp only [TemperatureTable.checkRows, bind_eq_ok_iff, require_eq_ok_iff, exists_const,
      List.map_map] at passed
    exact isTable_of_descends (by simpa using passed.1) passed.2.2
  | pressures passed =>
    obtain ⟨several, _, ascending⟩ := PressureRow.checkRows_isOk_iff.mp ⟨(), passed⟩
    rw [List.length_map] at several
    rw [List.map_map] at ascending
    exact isTable_of_descends (List.ne_nil_of_length_pos (by omega)) ascending
  | supply passed =>
    obtain ⟨nonempty, ascending, _⟩ := SupplyHistory.validate_eq_ok_iff.mp passed
    rw [List.map_map] at ascending
    exact isTable_of_descends (by simpa using nonempty) ascending

/-- The lookups in all tables with these knots compute one function, the interpolant. -/
structure IsLookup (knots : List (ℝ × ℝ)) (f : ℝ → ℝ) : Prop where
  temperature : ∀ t : Time ℝ,
    (SurfaceHistory.table
      { rows := knots.map temperatureRow, extrapolation := .hold }).temperatureAt t =
        .ok ⟨f t.seconds⟩
  pressure : ∀ t, (PressureLaw.tabulated (knots.map pressureRow)).log10Pressure t = f t
  supply : ∀ t, (SupplyHistory.table (knots.map supplyRow)).rateAt t = f t
  interpolant : IsInterpolant knots f
  only : ∀ g, IsInterpolant knots g → g = f
  between : ∀ k k', [k, k'] <:+: knots → ∀ x ∈ Set.Icc k.1 k'.1, f x ∈ Set.uIcc k.2 k'.2
  rises : ∀ part, part <:+: knots → (part.Pairwise fun k k' => k.2 ≤ k'.2) →
    ∀ k k', part.head? = some k → part.getLast? = some k' → MonotoneOn f (Set.Icc k.1 k'.1)
  falls : ∀ part, part <:+: knots → (part.Pairwise fun k k' => k'.2 ≤ k.2) →
    ∀ k k', part.head? = some k → part.getLast? = some k' → AntitoneOn f (Set.Icc k.1 k'.1)
  /-- A lookup divides inside a segment only, and by a positive number. -/
  divides : ∀ x, match segment? knots x with
    | some (k, k') => 0 < k'.1 - k.1 ∧ f x = k.2 + (k'.2 - k.2) * (x - k.1) / (k'.1 - k.1)
    | none => ∃ k ∈ knots, f x = k.2

/-- Without a segment the lookup gives the value of a knot. -/
theorem IsTable.exists_of_segment?_eq_none {knots : List (ℝ × ℝ)} (table : IsTable knots) {x : ℝ}
    (none : segment? knots x = none) : ∃ k ∈ knots, interpolate knots x = k.2 := by
  have interpolant := table.isInterpolant_interpolate
  cases table.place x with
  | before k first le => exact ⟨k, List.mem_of_head? first, interpolant.eq_of_before first le⟩
  | after k last le => exact ⟨k, List.mem_of_getLast? last, interpolant.eq_of_after last le⟩
  | between k k' next mem =>
    rcases mem.2.eq_or_lt with rfl | inside
    · exact ⟨k', next.subset (by simp), interpolant.knot k' (next.subset (by simp))⟩
    · have found := table.segment?_eq_some_iff.mpr ⟨next, mem.1, inside⟩
      rw [none] at found
      cases found

/-- **Three lookups, one interpolant.** Accepted tables have ascending knots, and for every table of
ascending knots the surface temperature that holds beyond the ends, the vapor pressure and the
supply rate are one function of the knots: the interpolant, of which there is no other. -/
theorem lookups_interpolate (knots : List (ℝ × ℝ)) :
    (IsAccepted knots → IsTable knots) ∧
      (IsTable knots → IsLookup knots (interpolate knots)) := by
  refine ⟨IsAccepted.isTable, fun table => ?_⟩
  have interpolant := table.isInterpolant_interpolate
  constructor
  case temperature =>
    intro t
    simp [SurfaceHistory.temperatureAt, TemperatureTable.temperatureAt, TemperatureTable.knots,
      temperatureRow, Function.comp_def, Functor.map, Except.map]
  case pressure =>
    intro t
    simp [PressureLaw.log10Pressure, pressureRow, Function.comp_def]
  case supply =>
    intro t
    simp [SupplyHistory.rateAt, supplyRow, Function.comp_def]
  case interpolant => exact interpolant
  case only => exact fun g other => other.unique interpolant table
  case between => exact fun k k' next x mem => interpolant.mem_uIcc table next mem
  case rises =>
    exact fun part inside rising k k' first last =>
      interpolant.monotoneOn table inside rising first last
  case falls =>
    exact fun part inside falling k k' first last =>
      interpolant.antitoneOn table inside falling first last
  case divides =>
    intro x
    split
    · rename_i k k' found
      obtain ⟨next, _⟩ := table.segment?_eq_some_iff.mp found
      exact ⟨sub_pos.mpr (table.lt_of_next next), interpolate_of_segment found⟩
    · rename_i none
      exact table.exists_of_segment?_eq_none none

/-- A surface that cools by 10 K a second for 100 s and by half of that for another 200 s: the table
is accepted, and all lookups give 3500 K after 50 s and 2500 K after 200 s. -/
theorem lookups_interpolate_cooling :
    let knots : List (ℝ × ℝ) := [(0, 4000), (100, 3000), (300, 2000)]
    IsAccepted knots ∧ IsLookup knots (interpolate knots) ∧
      interpolate knots 50 = 3500 ∧ interpolate knots 200 = 2500 := by
  intro knots
  have accepted : IsAccepted knots := by
    refine .temperatures ?_
    simp [TemperatureTable.checkRows, knots, temperatureRow, descends]
    norm_num
  have table := (lookups_interpolate knots).1 accepted
  have lookup := (lookups_interpolate knots).2 table
  have early : [((0 : ℝ), (4000 : ℝ)), (100, 3000)] <:+: knots := ⟨[], [(300, 2000)], rfl⟩
  have late : [((100 : ℝ), (3000 : ℝ)), (300, 2000)] <:+: knots := ⟨[(0, 4000)], [], rfl⟩
  refine ⟨accepted, lookup, ?_, ?_⟩
  · rw [lookup.interpolant.eq_line table early (by norm_num)]
    norm_num
  · rw [lookup.interpolant.eq_line table late (by norm_num)]
    norm_num

end Table
end DebrisDisk
