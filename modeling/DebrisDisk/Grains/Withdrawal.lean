import DebrisDisk.Grains.SizeBins

/-!
# Withdrawals from bins

The removal processes ask each bin for some mass in turn. A bin gives at most what it holds. A bin
that holds a negative or undefined mass cannot be drawn from: the withdrawal is refused there, and
the bins after it are left alone.

## Main definitions

* `withdraw`: one bin.
* `withdrawAll`: the bins in order, with the sum of what they gave.
* `SizeBins.drain`: each active bin gives up a fraction of its active mass.
* `settle`: the bins in order, some of which gain while others give.
-/

namespace DebrisDisk
open Scalar
variable {α : Type} [Scalar α]

/-- What a bin that holds `held` gives when asked for `kg`; absent when it cannot be drawn from. -/
def withdraw (held kg : α) : Option α := if 0 ≤ held then some (clamp kg 0 held) else none

/-- Asks the bins in order, those without a request being passed over. Gives the masses that are
left, and `taken` plus what was given; absent when a bin could not be drawn from. -/
def withdrawAll : (taken : α) → (held : List α) → (requests : List (Option α)) → List α × Option α
  | taken, m :: ms, none :: rs =>
    let (left, sum) := withdrawAll taken ms rs
    (m :: left, sum)
  | taken, m :: ms, some kg :: rs =>
    match withdraw m kg with
    | none => (m :: ms, none)
    | some given =>
      let (left, sum) := withdrawAll (taken + given) ms rs
      ((m - given) :: left, sum)
  | taken, ms, _ => (ms, some taken)

/-- Adds the positive changes to the bins and asks for the negative ones, in order. Gives the masses
and whether no bin refused. -/
def settle : (held changes : List α) → List α × Bool
  | m :: ms, c :: cs =>
    if 0 < c then
      let (left, fine) := settle ms cs
      ((m + c) :: left, fine)
    else if c < 0 then
      match withdraw m (-c) with
      | none => (m :: ms, false)
      | some given =>
        let (left, fine) := settle ms cs
        ((m - given) :: left, fine)
    else
      let (left, fine) := settle ms cs
      (m :: left, fine)
  | ms, _ => (ms, true)

namespace SizeBins

/-- Asks one bin for mass. Gives what it gave; absent when there is no such bin or it cannot be
drawn from. -/
def removeMass (b : SizeBins α) (bin : Nat) (kg : α) : Option (SizeBins α × α) :=
  match b.masses[bin]? with
  | none => none
  | some m => (withdraw m kg).map fun given =>
    ({ b with masses := b.masses.set bin (m - given) }, given)

/-- Asks the bins in order. -/
def withdrawAll (b : SizeBins α) (requests : List (Option α)) : SizeBins α × Option α :=
  let (left, taken) := DebrisDisk.withdrawAll 0 b.masses requests
  ({ b with masses := left }, taken)

/-- Asks each bin with an active share for that share of its mass times `fraction` of its centre. -/
def drain (b : SizeBins α) (floor : α) (fraction : α → α) : SizeBins α × Option α :=
  let request (m : α) (weight centre : α) : Option α :=
    if isZero weight then none else some (m * weight * fraction centre)
  b.withdrawAll (List.zipWith (fun m (wc : α × α) => request m wc.1 wc.2) b.masses
    ((b.activeWeights floor).zip b.centres))

end SizeBins
end DebrisDisk
