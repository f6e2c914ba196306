import DebrisDisk.Proofs.Fractions

/-!
# Windows of supply

A piecewise supply is a list of windows, each with its start but without its end. Validation looks
at one window at a time: its rate is usable and its end is not at its start or before it. It never
compares two windows, so windows may overlap, and then the one that is listed first decides: what
the others would supply is dropped, and another order gives another rate.

Windows that do not overlap behave as a sum: each time has at most one of them, and their order does
not matter. `SupplyHistory.AreDisjoint` is that condition. It can be decided from the bounds alone,
since two accepted windows have a time in common exactly when each starts before the other ends: the
later of the two starts then lies in both. This holds on every carrier whose comparisons are those
of `Scalar.Ordered`, and a window with an undefined bound contains no time and overlaps nothing.

## Main definitions

* `SupplySegment.Overlaps`: each window starts before the other ends.
* `SupplyHistory.containing`: the windows that contain a time, in the order of the list.
* `SupplyHistory.AreDisjoint`: no two windows overlap.

## Main results

* `SupplySegment.overlaps_iff_exists`: accepted windows overlap when some time is in both.
* `SupplyHistory.rateAt_comm_iff`: the order is free when overlapping windows have the same rate.
* `SupplyHistory.rateAt_of_windows`: what accepted windows supply.
-/

namespace DebrisDisk
open Scalar
variable {α : Type} [Scalar α]

theorem Scalar.Ordered.lt_of_le_of_lt [Ordered α] {x y z : α} (h : x ≤ y) (h' : y < z) :
    x < z := by
  by_contra unlike
  have above := Ordered.le_of_not_lt (Ordered.le_self_of_le h).1
    (Ordered.le_self_of_le (Ordered.le_of_lt h')).2 unlike
  exact Ordered.not_lt_of_le (Ordered.le_trans above h) h'

/-! ## Two windows -/

namespace SupplySegment
variable {s s' : SupplySegment α} {t : α}

theorem contains_iff : s.contains t = true ↔ s.start ≤ t ∧ t < s.stop := by
  simp [contains]

/-- The end of the window is not at its start or before it: all that validation asks of the two. -/
def HasExtent (s : SupplySegment α) : Prop := ¬ s.stop ≤ s.start

/-- Each of the windows starts before the other ends. -/
def Overlaps (s s' : SupplySegment α) : Prop := s.start < s'.stop ∧ s'.start < s.stop

instance : Decidable (s.Overlaps s') := inferInstanceAs (Decidable (_ ∧ _))

section Ordered
variable [Ordered α]

theorem overlaps_of_contains (h : s.contains t = true) (h' : s'.contains t = true) :
    s.Overlaps s' := by
  rw [contains_iff] at h h'
  exact ⟨Ordered.lt_of_le_of_lt h.1 h'.2, Ordered.lt_of_le_of_lt h'.1 h.2⟩

/-- A window with defined bounds ends after it starts. -/
theorem HasExtent.start_lt_stop (h : s.HasExtent) (start : s.start ≤ s.start)
    (stop : s.stop ≤ s.stop) : s.start < s.stop := by
  by_contra unlike
  exact h (Ordered.le_of_not_lt start stop unlike)

/-- The later of the two starts lies in both of two windows that overlap. -/
theorem Overlaps.contains_fmax (h : s.Overlaps s') (extent : s.HasExtent) (extent' : s'.HasExtent) :
    s.contains (fmax s.start s'.start) = true ∧ s'.contains (fmax s.start s'.start) = true := by
  obtain ⟨start, stop'⟩ := Ordered.le_self_of_le (Ordered.le_of_lt h.1)
  obtain ⟨start', stop⟩ := Ordered.le_self_of_le (Ordered.le_of_lt h.2)
  obtain ⟨above, above'⟩ := le_fmax start start'
  have before : fmax s.start s'.start < s.stop ∧ fmax s.start s'.start < s'.stop := by
    rcases foldl_fmax_mem [s'.start] s.start with first | second
    · have first : fmax s.start s'.start = s.start := first
      rw [first]
      exact ⟨extent.start_lt_stop start stop, h.1⟩
    · have second : fmax s.start s'.start = s'.start := List.mem_singleton.mp second
      rw [second]
      exact ⟨h.2, extent'.start_lt_stop start' stop'⟩
  rw [contains_iff, contains_iff]
  exact ⟨⟨above, before.1⟩, above', before.2⟩

/-- Two windows that pass the check overlap exactly when some time is in both. -/
theorem overlaps_iff_exists (extent : s.HasExtent) (extent' : s'.HasExtent) :
    s.Overlaps s' ↔ ∃ t, s.contains t = true ∧ s'.contains t = true :=
  ⟨fun h => ⟨_, h.contains_fmax extent extent'⟩, fun ⟨_, h, h'⟩ => overlaps_of_contains h h'⟩

end Ordered
end SupplySegment

/-! ## A list of windows -/

namespace SupplyHistory
variable {segments : List (SupplySegment α)} {s s' : SupplySegment α} {t : α}

/-- The windows that contain the time, in the order of the list. -/
def containing (segments : List (SupplySegment α)) (t : α) : List (SupplySegment α) :=
  segments.filter (·.contains t)

/-- No two windows overlap. -/
def AreDisjoint (segments : List (SupplySegment α)) : Prop :=
  segments.Pairwise fun s s' => ¬ s.Overlaps s'

instance : Decidable (AreDisjoint segments) := inferInstanceAs (Decidable (List.Pairwise _ _))

theorem mem_containing : s ∈ containing segments t ↔ s ∈ segments ∧ s.contains t = true :=
  List.mem_filter

/-- The first of the windows that contain the time decides. -/
theorem rateAt_piecewise (segments : List (SupplySegment α)) (t : α) :
    (piecewise segments).rateAt t = ((containing segments t).head?.map (·.rate)).getD 0 := by
  rw [containing, List.head?_filter, rateAt]

/-- A window that contains the time and is moved to the front decides. -/
theorem exists_rateAt_of_contains (member : s ∈ segments) (inside : s.contains t = true) :
    ∃ listed, segments.Perm listed ∧ (piecewise listed).rateAt t = s.rate := by
  obtain ⟨before, after, rfl⟩ := List.append_of_mem member
  exact ⟨s :: (before ++ after), List.perm_middle, by simp [rateAt, inside]⟩

/-- When the windows that contain the time have the same rate, their order does not matter. -/
theorem rateAt_perm {listed : List (SupplySegment α)} (same : segments.Perm listed)
    (alike : ∀ s ∈ containing segments t, ∀ s' ∈ containing segments t, s.rate = s'.rate) :
    (piecewise listed).rateAt t = (piecewise segments).rateAt t := by
  have within : (containing segments t).Perm (containing listed t) := same.filter _
  rw [rateAt_piecewise, rateAt_piecewise]
  generalize containing segments t = here at within alike
  generalize containing listed t = there at within
  match here, there with
  | [], _ => rw [within.nil_eq]
  | _, [] => rw [within.eq_nil]
  | first :: _, first' :: _ =>
    have member' := within.mem_iff.mpr List.mem_cons_self
    simp [alike first' member' first List.mem_cons_self]

/-- A time is in at most one of the windows when it is in no two of them. -/
theorem length_containing_le_one : (containing segments t).length ≤ 1 ↔
    segments.Pairwise fun s s' => ¬ (s.contains t = true ∧ s'.contains t = true) := by
  have short (xs : List (SupplySegment α)) : xs.length ≤ 1 ↔ xs.Pairwise fun _ _ => False := by
    match xs with
    | [] => simp
    | [_] => simp
    | _ :: s :: _ =>
      exact iff_of_false (by simp) fun none => (List.pairwise_cons.mp none).1 s (by simp)
  rw [short, containing, List.pairwise_filter]
  simp only [not_and, Bool.not_eq_true, imp_false]

/-- A window that is the only one to contain the time gives all of the supply. -/
theorem rateAt_eq_sum (single : (containing segments t).length ≤ 1)
    (start : ∀ s ∈ segments, 0 + s.rate = s.rate) :
    (piecewise segments).rateAt t = sum ((containing segments t).map (·.rate)) := by
  rw [rateAt_piecewise]
  match list : containing segments t with
  | [] => rfl
  | [s] =>
    have listed : s ∈ containing segments t := by simp [list]
    exact (start s (mem_containing.mp listed).1).symm
  | _ :: _ :: _ => simp [list] at single

/-- Where no two windows contain the time their order does not matter. -/
theorem rateAt_perm_of_single {listed : List (SupplySegment α)}
    (single : (containing segments t).length ≤ 1) (same : segments.Perm listed) :
    (piecewise listed).rateAt t = (piecewise segments).rateAt t := by
  refine rateAt_perm same fun s member s' member' => ?_
  generalize containing segments t = inside at single member member'
  match inside with
  | [] => simp at member
  | [_] => rw [List.mem_singleton.mp member, List.mem_singleton.mp member']
  | _ :: _ :: _ => simp at single

section Ordered
variable [Ordered α]

/-- Each time is in at most one of the windows exactly when no two of them overlap. -/
theorem length_containing_le_one_iff (extents : ∀ s ∈ segments, s.HasExtent) :
    (∀ t, (containing segments t).length ≤ 1) ↔ AreDisjoint segments := by
  simp only [length_containing_le_one, AreDisjoint, List.pairwise_iff_forall_sublist]
  constructor
  · intro apart s s' pair overlap
    have extent := extents s (pair.subset (by simp))
    have extent' := extents s' (pair.subset (by simp))
    obtain ⟨t, inside⟩ := (SupplySegment.overlaps_iff_exists extent extent').mp overlap
    exact apart t pair inside
  · intro apart t s s' pair inside
    exact apart pair (SupplySegment.overlaps_of_contains inside.1 inside.2)

/-- The rate does not depend on the order of the windows exactly when overlapping windows have the
same rate. -/
theorem rateAt_comm_iff (extents : ∀ s ∈ segments, s.HasExtent) :
    (∀ listed, segments.Perm listed →
        ∀ t, (piecewise listed).rateAt t = (piecewise segments).rateAt t) ↔
      ∀ s ∈ segments, ∀ s' ∈ segments, s.Overlaps s' → s.rate = s'.rate := by
  constructor
  · intro free s member s' member' overlap
    obtain ⟨t, inside, inside'⟩ :=
      (SupplySegment.overlaps_iff_exists (extents s member) (extents s' member')).mp overlap
    obtain ⟨listed, same, rate⟩ := exists_rateAt_of_contains member inside
    obtain ⟨listed', same', rate'⟩ := exists_rateAt_of_contains member' inside'
    rw [← rate, ← rate', free listed same, free listed' same']
  · intro alike listed same t
    refine rateAt_perm same fun s member s' member' => ?_
    obtain ⟨among, inside⟩ := mem_containing.mp member
    obtain ⟨among', inside'⟩ := mem_containing.mp member'
    exact alike s among s' among' (SupplySegment.overlaps_of_contains inside inside')

/-- **What accepted windows supply.** The first listed of the windows that contain the time decides.
Each time is in at most one window exactly when no two windows overlap, which is not checked. At a
time that is in at most one window, the rate is the sum over the windows that contain it and does
not depend on their order. Every order is accepted, and all orders give the same rates exactly when
overlapping windows have the same rate. -/
theorem rateAt_of_windows (accepted : (piecewise segments).validate = .ok ()) :
    (∀ t, (piecewise segments).rateAt t = ((containing segments t).head?.map (·.rate)).getD 0) ∧
    ((∀ t, (containing segments t).length ≤ 1) ↔ AreDisjoint segments) ∧
    (∀ t, (containing segments t).length ≤ 1 →
      ((∀ s ∈ segments, 0 + s.rate = s.rate) →
        (piecewise segments).rateAt t = sum ((containing segments t).map (·.rate))) ∧
      ∀ listed, segments.Perm listed →
        (piecewise listed).rateAt t = (piecewise segments).rateAt t) ∧
    (∀ listed, segments.Perm listed → (piecewise listed).validate = .ok ()) ∧
    ((∀ listed, segments.Perm listed →
        ∀ t, (piecewise listed).rateAt t = (piecewise segments).rateAt t) ↔
      ∀ s ∈ segments, ∀ s' ∈ segments, s.Overlaps s' → s.rate = s'.rate) := by
  have valid := validate_eq_ok_iff.mp accepted
  have extents : ∀ s ∈ segments, s.HasExtent := fun s member => (valid s member).2
  refine ⟨rateAt_piecewise segments, length_containing_le_one_iff extents,
    fun t single => ⟨rateAt_eq_sum single, fun _ => rateAt_perm_of_single single⟩, ?_,
    rateAt_comm_iff extents⟩
  intro listed same
  exact validate_eq_ok_iff.mpr fun s member => valid s (same.mem_iff.mpr member)

end Ordered

/-- Windows from 0 to 10 s and from 5 to 15 s pass the checks. At 7 s, which is in both, the rate is
that of the first of them in either order, and never their sum. Windows from 0 to 10 s and from 10
to 20 s have no time in common, so they supply their sum at all times. -/
theorem rateAt_of_windows_overlap :
    let early : SupplySegment ℝ := ⟨0, 10, 1⟩
    let late : SupplySegment ℝ := ⟨5, 15, 4⟩
    let next : SupplySegment ℝ := ⟨10, 20, 4⟩
    (piecewise [early, late]).validate = .ok () ∧ (piecewise [late, early]).validate = .ok () ∧
      (piecewise [early, late]).rateAt 7 = 1 ∧ (piecewise [late, early]).rateAt 7 = 4 ∧
      sum ((containing [early, late] 7).map (·.rate)) = 5 ∧ ¬ AreDisjoint [early, late] ∧
      ∀ t, (piecewise [early, next]).rateAt t
        = sum ((containing [early, next] t).map (·.rate)) := by
  intro early late next
  have accepted : (piecewise [early, late]).validate = .ok () :=
    validate_eq_ok_iff.mpr (by simp only [IsValid, early, late]; norm_num)
  have accepted' : (piecewise [early, next]).validate = .ok () :=
    validate_eq_ok_iff.mpr (by simp only [IsValid, early, next]; norm_num)
  have both : containing [early, late] 7 = [early, late] := by
    simp only [containing, SupplySegment.contains, early, late]
    norm_num
  have both' : containing [late, early] 7 = [late, early] := by
    simp only [containing, SupplySegment.contains, early, late]
    norm_num
  obtain ⟨decides, single, _, orders, _⟩ := rateAt_of_windows accepted
  have reversed := orders [late, early] (.swap ..)
  obtain ⟨decides', _⟩ := rateAt_of_windows reversed
  obtain ⟨_, single', summed, _⟩ := rateAt_of_windows accepted'
  refine ⟨accepted, reversed, ?_, ?_, ?_, ?_, fun t => (summed t (single'.mpr ?_ t)).1 (by simp)⟩
  · rw [decides, both]
    rfl
  · rw [decides', both']
    rfl
  · rw [both, sum_real]
    norm_num [early, late]
  · intro disjoint
    simpa [both] using single.mpr disjoint 7
  · simp [AreDisjoint, SupplySegment.Overlaps, early, next]

end SupplyHistory
end DebrisDisk
