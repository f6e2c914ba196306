import DebrisDisk.Scalar

/-!
# Tables

A table gives a quantity at ascending knots. Between two knots the quantity is interpolated
linearly, and beyond the ends it keeps the value of the end. The segment is found by halving, which
for knots in any other order still gives a definite answer.
-/

namespace DebrisDisk.Table
open Scalar
variable {α β : Type}

/-- The count of leading entries with the property, found by halving: as long as several entries are
left, the middle one decides which half is kept. -/
def partitionPoint (p : β → Bool) (xs : List β) : Nat :=
  if h : 1 < xs.length then
    let half := xs.length / 2
    if p (xs.get ⟨xs.length / 2, by omega⟩) then half + partitionPoint p (xs.drop half)
    else partitionPoint p (xs.take (xs.length - half))
  else
    match xs with
    | [] => 0
    | x :: _ => if p x then 1 else 0
termination_by xs.length
decreasing_by
  · simp only [List.length_drop]; omega
  · simp only [List.length_take]; omega

variable [Scalar α]

/-- Some number is not greater than the one before it. -/
def descends (xs : List α) : Bool := (xs.zip xs.tail).any fun (a, b) => decide (b ≤ a)

/-- The table at `x`: linear between knots, constant beyond them, zero without knots. -/
def interpolate (knots : List (α × α)) (x : α) : α :=
  let i := partitionPoint (fun k => decide (k.1 ≤ x)) knots
  match i with
  | 0 => (knots.head?.map Prod.snd).getD 0
  | j + 1 =>
    match knots[j]?, knots[j + 1]? with
    | some (x0, y0), some (x1, y1) => y0 + (y1 - y0) * (x - x0) / (x1 - x0)
    | _, _ => (knots.getLast?.map Prod.snd).getD 0

end DebrisDisk.Table
