import DebrisDisk.Run.Advance

/-!
# Withdrawals taken apart

The bins of the grid are asked in order, and the first one that does not hold at least zero refuses.
`draws` lists the requests that bins meet. When nobody refuses, `leave` and `adjust` are the masses
that are left, and each bin has given what it was asked for as far as it holds that much.

All statements hold for every carrier of numbers, also for one with undefined values.

## Main results

* `withdrawAll_eq_none_iff`, `settle_eq_false_iff`: when a bin refuses.
* `withdrawAll_eq`, `settle_eq`: what is given and what is left when none does.
-/

namespace DebrisDisk
open Scalar

/-! ## Withdrawals -/

/-- A request that a bin meets. -/
structure Draw (α : Type) where
  held : α
  asked : α

/-- The requests that bins meet, in order. -/
def draws {α : Type} : (held : List α) → (requests : List (Option α)) → List (Draw α)
  | m :: ms, some kg :: rs => ⟨m, kg⟩ :: draws ms rs
  | _ :: ms, none :: rs => draws ms rs
  | _, _ => []

theorem mem_draws_iff {α : Type} {held : List α} {requests : List (Option α)} {d : Draw α} :
    d ∈ draws held requests ↔
      ∃ j : Nat, held[j]? = some d.held ∧ requests[j]? = some (some d.asked) := by
  induction held generalizing requests with
  | nil => simp [draws]
  | cons m ms ih =>
    cases requests with
    | nil => simp [draws]
    | cons r rs =>
      have later : (∃ j : Nat, (m :: ms)[j]? = some d.held ∧ (r :: rs)[j]? = some (some d.asked)) ↔
          (m = d.held ∧ r = some d.asked) ∨
            ∃ j : Nat, ms[j]? = some d.held ∧ rs[j]? = some (some d.asked) := by
        constructor
        · rintro ⟨_ | j, hm, hr⟩
          · simp only [List.getElem?_cons_zero, Option.some.injEq] at hm hr
            exact .inl ⟨hm, hr⟩
          · exact .inr ⟨j, hm, hr⟩
        · rintro (⟨rfl, rfl⟩ | ⟨j, hm, hr⟩)
          · exact ⟨0, rfl, rfl⟩
          · exact ⟨j + 1, hm, hr⟩
      rw [later, ← ih]
      cases r with
      | none => simp [draws]
      | some kg =>
        obtain ⟨held, asked⟩ := d
        simp [draws, eq_comm]

variable {α : Type} [Scalar α]

/-- What the bin gives, unless it refuses. -/
def Draw.given (d : Draw α) : α := clamp d.asked 0 d.held

theorem withdraw_eq_some_iff {held kg given : α} :
    withdraw held kg = some given ↔ 0 ≤ held ∧ clamp kg 0 held = given := by
  simp only [withdraw]
  split <;> simp_all

/-- The masses that are left when every bin gives. -/
def leave : (held : List α) → (requests : List (Option α)) → List α
  | m :: ms, some kg :: rs => (m - clamp kg 0 m) :: leave ms rs
  | m :: ms, none :: rs => m :: leave ms rs
  | ms, _ => ms

@[simp] theorem leave_nil (held : List α) : leave held [] = held := by
  cases held <;> rfl

@[simp] theorem length_leave (held : List α) (requests : List (Option α)) :
    (leave held requests).length = held.length := by
  induction held generalizing requests with
  | nil => cases requests <;> rfl
  | cons m ms ih =>
    rcases requests with _ | ⟨_ | kg, rs⟩ <;> simp [leave, ih]

theorem getElem?_leave (held : List α) (requests : List (Option α)) (j : Nat) :
    (leave held requests)[j]? = held[j]?.map fun m =>
      match requests[j]? with
      | some (some kg) => m - clamp kg 0 m
      | _ => m := by
  induction held generalizing requests j with
  | nil => cases requests <;> simp [leave]
  | cons m ms ih =>
    rcases requests with _ | ⟨_ | kg, rs⟩ <;> cases j <;> simp [leave, ih]

/-- Each bin is asked for some function of what it holds. -/
theorem leave_map (held : List α) (f : α → α) :
    leave held ((held.map f).map some) = held.map fun m => m - clamp (f m) 0 m := by
  induction held with
  | nil => rfl
  | cons m ms ih => simp only [List.map_cons, leave, ih]

/-- A withdrawal is refused exactly when some bin that is asked does not hold at least zero. -/
theorem withdrawAll_eq_none_iff (taken : α) (held : List α) (requests : List (Option α)) :
    (withdrawAll taken held requests).2 = none ↔ ∃ d ∈ draws held requests, ¬ 0 ≤ d.held := by
  induction held generalizing taken requests with
  | nil => simp [withdrawAll, draws]
  | cons m ms ih =>
    rcases requests with _ | ⟨_ | kg, rs⟩
    · simp [withdrawAll, draws]
    · simp only [withdrawAll, draws]
      exact ih taken rs
    · by_cases fine : 0 ≤ m
      · simp only [withdrawAll, withdraw, fine, if_true, draws, List.mem_cons, exists_eq_or_imp,
          not_true, false_or]
        exact ih _ rs
      · simp [withdrawAll, withdraw, fine, draws]

@[simp] theorem length_withdrawAll (taken : α) (held : List α) (requests : List (Option α)) :
    (withdrawAll taken held requests).1.length = held.length := by
  induction held generalizing taken requests with
  | nil => simp [withdrawAll]
  | cons m ms ih =>
    rcases requests with _ | ⟨_ | kg, rs⟩
    · simp [withdrawAll]
    · simp [withdrawAll, ih]
    · simp only [withdrawAll]
      split <;> simp [ih]

/-- Bins that hold at least zero give what they are asked for, within what they hold. -/
theorem withdrawAll_eq (taken : α) {held : List α} {requests : List (Option α)}
    (fine : ∀ d ∈ draws held requests, 0 ≤ d.held) :
    withdrawAll taken held requests =
      (leave held requests,
        some (((draws held requests).map Draw.given).foldl (· + ·) taken)) := by
  induction held generalizing taken requests with
  | nil => simp [withdrawAll, draws, leave]
  | cons m ms ih =>
    rcases requests with _ | ⟨_ | kg, rs⟩
    · simp [withdrawAll, draws, leave]
    · simp only [withdrawAll, draws, leave]
      rw [ih taken fine]
    · simp only [draws, List.mem_cons, forall_eq_or_imp] at fine
      simp only [withdrawAll, withdraw, fine.1, if_true, draws, leave, List.map_cons,
        List.foldl_cons, Draw.given]
      rw [ih _ fine.2]

/-! ## Gains and losses together -/

/-- What a change asks a bin for, if it takes from it. -/
def withdrawal? (change : α) : Option α :=
  if 0 < change then none else if change < 0 then some (-change) else none

/-- A mass after a change. -/
def adjusted (m change : α) : α :=
  if 0 < change then m + change
  else if change < 0 then m - clamp (-change) 0 m else m

/-- Changes are refused exactly when one takes from a bin that does not hold at least zero. -/
theorem settle_eq_false_iff (held changes : List α) :
    (settle held changes).2 = false ↔
      ∃ d ∈ draws held (changes.map withdrawal?), ¬ 0 ≤ d.held := by
  induction held generalizing changes with
  | nil => simp [settle, draws]
  | cons m ms ih =>
    rcases changes with _ | ⟨x, xs⟩
    · simp [settle, draws]
    · by_cases gain : 0 < x
      · simp [settle, draws, withdrawal?, gain, ih]
      · by_cases loss : x < 0
        · by_cases fine : 0 ≤ m
          · simp only [settle, gain, loss, if_true, if_false, withdraw, fine, List.map_cons,
              withdrawal?, draws, List.mem_cons, exists_eq_or_imp, not_true, false_or]
            exact ih xs
          · simp [settle, draws, withdrawal?, withdraw, gain, loss, fine]
        · simp [settle, draws, withdrawal?, gain, loss, ih]

/-- The masses after changes that no bin refuses. -/
def adjust : (held changes : List α) → List α
  | m :: ms, x :: xs => adjusted m x :: adjust ms xs
  | ms, _ => ms

@[simp] theorem adjust_nil (held : List α) : adjust held [] = held := by
  cases held <;> rfl

@[simp] theorem length_settle (held changes : List α) :
    (settle held changes).1.length = held.length := by
  induction held generalizing changes with
  | nil => simp [settle]
  | cons m ms ih =>
    rcases changes with _ | ⟨x, xs⟩
    · simp [settle]
    · simp only [settle]
      split
      · simp [ih]
      · split
        · split <;> simp [ih]
        · simp [ih]

/-- Changes that no bin refuses are made one by one. -/
theorem settle_eq {held changes : List α}
    (fine : ∀ d ∈ draws held (changes.map withdrawal?), 0 ≤ d.held) :
    settle held changes = (adjust held changes, true) := by
  induction held generalizing changes with
  | nil => simp [settle, adjust]
  | cons m ms ih =>
    rcases changes with _ | ⟨x, xs⟩
    · simp [settle]
    · by_cases gain : 0 < x
      · simp only [List.map_cons, withdrawal?, gain, if_true, draws] at fine
        simp [settle, adjust, adjusted, gain, ih fine]
      · by_cases loss : x < 0
        · simp only [List.map_cons, withdrawal?, gain, loss, if_true, if_false, draws,
            List.mem_cons, forall_eq_or_imp] at fine
          simp [settle, adjust, adjusted, withdraw, gain, loss, fine.1, ih fine.2]
        · simp only [List.map_cons, withdrawal?, gain, loss, if_false, draws] at fine
          simp [settle, adjust, adjusted, gain, loss, ih fine]

end DebrisDisk
