import DebrisDisk.Proofs.Stages

/-!
# Walking the bins by index

The stages of a step walk the edges, the masses and the changes of the bins side by side. Here some
of them are loops that count through the bins and look each entry up by its index; a look-up past
the end of a list leaves no result. On a grid with one span for each mass none fails, and the loops
give what the stages give.

Each loop has a course: what it holds after `k` turns is what the stage makes of the first `k` bins,
in front of the rest as it was. A turn goes from each state of the course to the next one, so the
loop ends where the course ends. All statements hold for every carrier of numbers.

## Main definitions

* `SizeBins.activeWeightAt?`, `SizeBins.retireByIndex?`, `SupplySettings.injectByIndex?`,
  `CollisionSettings.grindByIndex?`: the loops.
* `SizeBins.StaysInRange`: no look-up fails, whatever the floor.

## Main results

* `foldlM_range_eq_some`: a loop follows its course to the end.
* `SizeBins.retireByIndex?_eq`, `SupplySettings.injectByIndex?_eq`,
  `CollisionSettings.grindByIndex?_eq`: the loops give what the stages give.
* `SizeBins.IsShaped.staysInRange`.
-/

namespace DebrisDisk
open Scalar
variable {α : Type} [Scalar α]

/-! ## Loops over indices -/

section Loops
variable {β σ : Type}

omit [Scalar α] in
/-- A loop that goes from each state of a course to the next one goes through all of it. -/
theorem foldlM_range_eq_some {turn : σ → Nat → Option σ} {n : Nat} (course : Nat → σ)
    (turns : ∀ k < n, turn (course k) k = some (course (k + 1))) :
    (List.range n).foldlM turn (course 0) = some (course n) := by
  induction n with
  | zero => rfl
  | succ n ih =>
    have before := ih fun k inside => turns k (Nat.lt_succ_of_lt inside)
    rw [List.range_succ, List.foldlM_append, before]
    simp [turns n (Nat.lt_succ_self n)]

theorem take_succ_of_getElem? {l : List β} {k : Nat} {x : β} (here : l[k]? = some x) :
    l.take (k + 1) = l.take k ++ [x] := by
  rw [List.take_add_one, here, Option.toList_some]

theorem drop_of_getElem? {l : List β} {k : Nat} {x : β} (here : l[k]? = some x) :
    l.drop k = x :: l.drop (k + 1) := by
  obtain ⟨inside, rfl⟩ := List.getElem?_eq_some_iff.mp here
  exact List.drop_eq_getElem_cons inside

/-- The first entry that a loop has not dealt with. -/
theorem getElem?_append_cons {front rest : List β} {k : Nat} {x : β} (dealt : front.length = k) :
    (front ++ x :: rest)[k]? = some x := by
  simp [← dealt]

theorem set_append_cons {front rest : List β} {k : Nat} {x y : β} (dealt : front.length = k) :
    (front ++ x :: rest).set k y = front ++ [y] ++ rest := by
  simp [← dealt]

theorem sum_concat (xs : List α) (x : α) : sum (xs ++ [x]) = sum xs + x := by
  simp [sum, List.foldl_append]

end Loops

/-! ## Bins and their edges -/

namespace SizeBins
variable {b : SizeBins α}

omit [Scalar α] in
/-- The edges of a bin have its index and the next one. -/
theorem getElem?_spans_eq_some {bin : Nat} {span : α × α} :
    b.spans[bin]? = some span ↔
      b.edges[bin]? = some span.1 ∧ b.edges[bin + 1]? = some span.2 := by
  rw [spans, List.getElem?_zip_eq_some, List.getElem?_tail]

omit [Scalar α] in
theorem IsShaped.exists_bin (shaped : b.IsShaped) {bin : Nat} (inside : bin < b.size) :
    ∃ m span, b.masses[bin]? = some m ∧ b.spans[bin]? = some span ∧
      b.edges[bin]? = some span.1 ∧ b.edges[bin + 1]? = some span.2 := by
  have counted : bin < b.spans.length := shaped.spans ▸ inside
  have span := List.getElem?_eq_getElem counted
  exact ⟨_, _, List.getElem?_eq_getElem inside, span, getElem?_spans_eq_some.mp span⟩

/-! ## Active shares -/

/-- The active share of the bin of an index. -/
def activeWeightAt? (b : SizeBins α) (bin : Nat) (floor : α) : Option α := do
  let lower ← b.edges[bin]?
  let upper ← b.edges[bin + 1]?
  return activeWeight lower upper floor

/-- The share by index is the entry of the shares of all bins, also where there is none. -/
theorem activeWeightAt?_eq (b : SizeBins α) (bin : Nat) (floor : α) :
    b.activeWeightAt? bin floor = (b.activeWeights floor)[bin]? := by
  rw [activeWeights, List.getElem?_map]
  cases here : b.spans[bin]? with
  | some span =>
    obtain ⟨lower, upper⟩ := getElem?_spans_eq_some.mp here
    simp [activeWeightAt?, lower, upper]
  | none =>
    simp only [activeWeightAt?, Option.map_none]
    cases lower : b.edges[bin]? with
    | none => rfl
    | some x =>
      cases upper : b.edges[bin + 1]? with
      | none => rfl
      | some y =>
        have span : b.spans[bin]? = some (x, y) := getElem?_spans_eq_some.mpr ⟨lower, upper⟩
        simp [here] at span

theorem activeWeightAt?_of_span {bin : Nat} {span : α × α} (here : b.spans[bin]? = some span)
    (floor : α) : b.activeWeightAt? bin floor = some (activeWeight span.1 span.2 floor) := by
  rw [activeWeightAt?_eq, activeWeights, List.getElem?_map, here, Option.map_some]

/-! ## Retirement -/

/-- Empties one bin if it lies wholly below the floor. -/
def retireTurn? (b : SizeBins α) (floor : α) : List α × α → Nat → Option (List α × α)
  | (masses, retired), bin => do
    let upper ← b.edges[bin + 1]?
    if upper ≤ floor then
      let m ← masses[bin]?
      return (masses.set bin 0, retired + m)
    else return (masses, retired)

/-- `SizeBins.retireBelow` as a loop over the bins. -/
def retireByIndex? (b : SizeBins α) (floor : α) : Option (SizeBins α × α) := do
  let (masses, retired) ← (List.range b.size).foldlM (b.retireTurn? floor) (b.masses, 0)
  return ({ b with masses }, retired)

/-- The masses and the sum of what was retired after `k` turns. -/
def retireCourse (b : SizeBins α) (floor : α) (k : Nat) : List α × α :=
  let dealt := (b.masses.zip b.spans).take k
  (dealt.map (fun p => if p.2.2 ≤ floor then 0 else p.1) ++ b.masses.drop k,
    sum ((dealt.filter fun p => decide (p.2.2 ≤ floor)).map (·.1)))

section Shaped
variable (shaped : b.IsShaped) (floor : α)
include shaped

theorem retireTurn?_course {k : Nat} (inside : k < b.size) :
    b.retireTurn? floor (b.retireCourse floor k) k = some (b.retireCourse floor (k + 1)) := by
  obtain ⟨m, span, held, here, _, upper⟩ := shaped.exists_bin inside
  have next := take_succ_of_getElem? (List.getElem?_zip_eq_some (z := (m, span)).mpr ⟨held, here⟩)
  have dealt : (((b.masses.zip b.spans).take k).map fun p =>
      if p.2.2 ≤ floor then 0 else p.1).length = k := by
    have counted := shaped.spans
    simp only [size] at inside
    simp only [List.length_map, List.length_take, List.length_zip]
    omega
  simp only [retireCourse, retireTurn?, next, drop_of_getElem? held, upper,
    getElem?_append_cons dealt, set_append_cons dealt]
  by_cases below : span.2 ≤ floor
  · simp [below, sum_concat]
  · simp [below]

theorem retireCourse_size :
    b.retireCourse floor b.size = ((b.retireBelow floor).1.masses, (b.retireBelow floor).2) := by
  have all : (b.masses.zip b.spans).take b.masses.length = b.masses.zip b.spans :=
    List.take_of_length_le (by simp [shaped.spans])
  simp only [retireCourse, all, retireBelow, List.map_zip_eq_zipWith, size, List.drop_length,
    List.append_nil, decide_eq_true_eq]
  rfl

theorem retireByIndex?_eq : b.retireByIndex? floor = some (b.retireBelow floor) := by
  have walked := foldlM_range_eq_some (b.retireCourse floor)
    fun k => retireTurn?_course shaped floor
  have start : b.retireCourse floor 0 = (b.masses, 0) := by simp [retireCourse]
  rw [start, retireCourse_size shaped] at walked
  rw [retireByIndex?, walked]
  rfl

end Shaped
end SizeBins

/-! ## Supply -/

namespace SupplySettings

/-- Notes the share of one bin, which is nothing if the floor cuts the bin. -/
def wholeTurn? (b : SizeBins α) (floor : α) (clipped whole : List α) (bin : Nat) :
    Option (List α) := do
  let w ← clipped[bin]?
  let active ← b.activeWeightAt? bin floor
  return whole ++ [if active < 1 then 0 else w]

/-- Adds its part of the delivery to one bin. -/
def injectTurn? (weights : List α) (kg : α) : List α × α → Nat → Option (List α × α)
  | (masses, injected), bin => do
    let w ← weights[bin]?
    let m ← masses[bin]?
    return (masses.set bin (m + kg * w), injected + kg * w)

/-- `SupplySettings.inject` as two loops over the bins. -/
def injectByIndex? (s : SupplySettings α) (b : SizeBins α) (kg floor : α) :
    Option (SizeBins α × α) :=
  if kg ≤ 0 then some (b, 0)
  else do
    let clipped := b.powerLawWeights floor s.slope
    let whole ← (List.range clipped.length).foldlM (wholeTurn? b floor clipped) []
    let total := sum whole
    let weights := if 0 < total then whole.map (· / total) else clipped
    if weights.all isZero then some (b, 0)
    else do
      let (masses, injected) ←
        (List.range weights.length).foldlM (injectTurn? weights kg) (b.masses, 0)
      return ({ b with masses }, injected)

/-- The shares of the bins wholly above the floor, before they are normalised again. -/
def wholeShares (s : SupplySettings α) (b : SizeBins α) (floor : α) : List α :=
  List.zipWith (fun w active => if active < 1 then 0 else w) (b.powerLawWeights floor s.slope)
    (b.activeWeights floor)

theorem wholeTurn?_course (s : SupplySettings α) (b : SizeBins α) (floor : α) {k : Nat}
    (inside : k < (s.wholeShares b floor).length) :
    wholeTurn? b floor (b.powerLawWeights floor s.slope) ((s.wholeShares b floor).take k) k =
      some ((s.wholeShares b floor).take (k + 1)) := by
  have share := List.getElem?_eq_getElem inside
  obtain ⟨w, active, clipped, weighed, same⟩ := List.getElem?_zipWith_eq_some.mp share
  rw [take_succ_of_getElem? share, ← same]
  simp [wholeTurn?, clipped, SizeBins.activeWeightAt?_eq, weighed]

theorem foldlM_wholeTurn? (s : SupplySettings α) (b : SizeBins α) (floor : α) :
    (List.range (b.powerLawWeights floor s.slope).length).foldlM
      (wholeTurn? b floor (b.powerLawWeights floor s.slope)) [] =
    some (s.wholeShares b floor) := by
  have counted : (b.powerLawWeights floor s.slope).length = (s.wholeShares b floor).length := by
    simp [wholeShares, SizeBins.activeWeights]
  have walked := foldlM_range_eq_some (s.wholeShares b floor).take
    fun k => wholeTurn?_course s b floor
  rwa [List.take_zero, List.take_length, ← counted] at walked

/-- The masses and the sum of what was delivered after `k` turns. -/
def injectCourse (masses weights : List α) (kg : α) (k : Nat) : List α × α :=
  let dealt := (masses.zip weights).take k
  (dealt.map (fun p => p.1 + kg * p.2) ++ masses.drop k, sum (dealt.map (kg * ·.2)))

section Delivery
variable {masses weights : List α} (counted : weights.length = masses.length) (kg : α)
include counted

theorem injectTurn?_course {k : Nat} (inside : k < weights.length) :
    injectTurn? weights kg (injectCourse masses weights kg k) k =
      some (injectCourse masses weights kg (k + 1)) := by
  have share := List.getElem?_eq_getElem inside
  have held := List.getElem?_eq_getElem (counted ▸ inside)
  have next := take_succ_of_getElem? (List.getElem?_zip_eq_some (z := (_, _)).mpr ⟨held, share⟩)
  have dealt : (((masses.zip weights).take k).map fun p => p.1 + kg * p.2).length = k := by
    simp only [List.length_map, List.length_take, List.length_zip]
    omega
  simp only [injectCourse, injectTurn?, next, drop_of_getElem? held, share,
    getElem?_append_cons dealt, set_append_cons dealt]
  simp [sum_concat]

theorem injectCourse_length : injectCourse masses weights kg weights.length =
    (List.zipWith (· + ·) masses (weights.map (kg * ·)), sum (weights.map (kg * ·))) := by
  have all : (masses.zip weights).take masses.length = masses.zip weights :=
    List.take_of_length_le (by simp [counted])
  have parts : (masses.zip weights).map (kg * ·.2) = weights.map (kg * ·) := by
    have second := congrArg (List.map (kg * ·)) (List.map_snd_zip (Nat.le_of_eq counted))
    rwa [List.map_map] at second
  simp only [injectCourse, all, parts, List.map_zip_eq_zipWith, List.zipWith_map_right, counted,
    List.drop_length, List.append_nil]
  rfl

theorem foldlM_injectTurn? :
    (List.range weights.length).foldlM (injectTurn? weights kg) (masses, 0) =
      some (List.zipWith (· + ·) masses (weights.map (kg * ·)), sum (weights.map (kg * ·))) := by
  have walked := foldlM_range_eq_some (injectCourse masses weights kg)
    fun k => injectTurn?_course counted kg
  have start : injectCourse masses weights kg 0 = (masses, 0) := by simp [injectCourse]
  rwa [start, injectCourse_length counted] at walked

end Delivery

theorem injectByIndex?_eq (s : SupplySettings α) {b : SizeBins α} (shaped : b.IsShaped)
    (kg floor : α) : s.injectByIndex? b kg floor = some (s.inject b kg floor) := by
  have counted : (s.shares b floor).length = b.masses.length := by
    rw [length_shares, shaped.spans]
  have weights : (if 0 < sum (s.wholeShares b floor)
      then (s.wholeShares b floor).map (· / sum (s.wholeShares b floor))
      else b.powerLawWeights floor s.slope) = s.shares b floor := rfl
  by_cases nothing : kg ≤ 0
  · simp [injectByIndex?, inject, nothing]
  · simp only [injectByIndex?, inject, if_neg nothing, foldlM_wholeTurn?, Option.bind_eq_bind,
      Option.bind_some, weights]
    split
    · rfl
    · rw [foldlM_injectTurn? counted]
      rfl

end SupplySettings

/-! ## Changes of the bins -/

/-- What one bin holds after its change, and whether it did not refuse. -/
def settleBin (m change : α) : α × Bool :=
  if 0 < change then (m + change, true)
  else if change < 0 then
    match withdraw m (-change) with
    | none => (m, false)
    | some given => (m - given, true)
  else (m, true)

/-- Changes one bin, unless one before it refused. -/
def settleTurn? (changes : List α) : List α × Bool → Nat → Option (List α × Bool)
  | (masses, fine), bin => do
    let change ← changes[bin]?
    let m ← masses[bin]?
    if fine then
      let (left, fine) := settleBin m change
      return (masses.set bin left, fine)
    else return (masses, false)

theorem settleBin_of_refused {m change : α} (refused : (settleBin m change).2 = false) :
    (settleBin m change).1 = m := by
  simp only [settleBin] at refused ⊢
  split at refused
  · exact nomatch refused
  · split at refused
    · cases given : withdraw m (-change) <;> simp_all
    · exact nomatch refused

theorem settle_cons (m change : α) (held changes : List α) :
    settle (m :: held) (change :: changes) =
      if (settleBin m change).2 then
        ((settleBin m change).1 :: (settle held changes).1, (settle held changes).2)
      else (m :: held, false) := by
  simp only [settle, settleBin]
  split
  · simp
  · split
    · cases withdraw m (-change) <;> simp
    · simp

/-- The last bin changes unless one before it refused. -/
theorem settle_concat {held changes : List α} (counted : held.length = changes.length)
    (m change : α) :
    settle (held ++ [m]) (changes ++ [change]) =
      if (settle held changes).2 then
        ((settle held changes).1 ++ [(settleBin m change).1], (settleBin m change).2)
      else ((settle held changes).1 ++ [m], false) := by
  induction held generalizing changes with
  | nil =>
    obtain rfl := List.length_eq_zero_iff.mp counted.symm
    rw [List.nil_append, List.nil_append, settle_cons]
    cases fine : (settleBin m change).2 with
    | true => simp [settle]
    | false => simp [settle, settleBin_of_refused fine]
  | cons first rest ih =>
    obtain ⟨c, cs, rfl⟩ := List.exists_cons_of_length_eq_add_one counted.symm
    rw [List.cons_append, List.cons_append, settle_cons, settle_cons, ih (by simpa using counted)]
    split <;> split <;> simp_all

/-- The masses after `k` turns, and whether none of the bins refused. -/
def settleCourse (held changes : List α) (k : Nat) : List α × Bool :=
  ((settle (held.take k) (changes.take k)).1 ++ held.drop k,
    (settle (held.take k) (changes.take k)).2)

section Settling
variable {held changes : List α} (counted : changes.length = held.length)
include counted

theorem settleTurn?_course {k : Nat} (inside : k < changes.length) :
    settleTurn? changes (settleCourse held changes k) k =
      some (settleCourse held changes (k + 1)) := by
  have change := List.getElem?_eq_getElem inside
  have m := List.getElem?_eq_getElem (counted ▸ inside)
  have together : (held.take k).length = (changes.take k).length := by simp [counted]
  have dealt : (settle (held.take k) (changes.take k)).1.length = k := by
    rw [length_settle, List.length_take]
    omega
  simp only [settleCourse, settleTurn?, take_succ_of_getElem? change, take_succ_of_getElem? m,
    settle_concat together, drop_of_getElem? m, change, getElem?_append_cons dealt,
    set_append_cons dealt]
  cases fine : (settle (held.take k) (changes.take k)).2 <;> simp

theorem foldlM_settleTurn? :
    (List.range changes.length).foldlM (settleTurn? changes) (held, true) =
      some (settle held changes) := by
  have walked := foldlM_range_eq_some (settleCourse held changes)
    fun k => settleTurn?_course counted
  have all : changes.take held.length = changes := List.take_of_length_le (Nat.le_of_eq counted)
  simpa [settleCourse, settle, counted, all] using walked

end Settling

/-! ## Fragments -/

namespace Parent
variable {q floor : α}

/-- What a bin holds or a sum amounts to after a part has come in, if any. -/
def received (x : α) : Option α → α
  | none => x
  | some kg => x + kg

theorem change_concat (child p : Parent α) (larger : List (Parent α)) :
    child.change q floor (larger ++ [p]) =
      received (child.change q floor larger) (p.gain? q floor child) := by
  simp only [change, List.foldl_append, List.foldl_cons, List.foldl_nil]
  cases p.gain? q floor child <;> rfl

theorem placed_concat (p child : Parent α) (smaller : List (Parent α)) :
    p.placed q floor (smaller ++ [child]) =
      received (p.placed q floor smaller) (p.gain? q floor child) := by
  simp only [placed, List.foldl_append, List.foldl_cons, List.foldl_nil]
  cases p.gain? q floor child <;> rfl

/-- A larger bin loses its own and sends each smaller one its part. -/
theorem changes_concat (ps : List (Parent α)) (p : Parent α) :
    changes q floor (ps ++ [p]) =
      List.zipWith received (changes q floor ps) (ps.map (p.gain? q floor)) ++
        [p.change q floor []] := by
  induction ps with
  | nil => rfl
  | cons child larger ih => simp [changes, change_concat, ih]

theorem changes_concat_of_idle {p : Parent α} (idle : p.isGround = false)
    (ps : List (Parent α)) : changes q floor (ps ++ [p]) = changes q floor ps ++ [0] := by
  have nothing : ps.map (p.gain? q floor) = List.replicate ps.length none := by
    rw [List.map_eq_replicate_iff]
    intro child _
    simp [gain?, idle]
  have same : List.zipWith received (changes q floor ps) (List.replicate ps.length none) =
      changes q floor ps := List.ext_getElem (by simp) fun i _ _ => by simp [received]
  simp [changes_concat, nothing, same, change, idle]

theorem outcome_concat (o : GrindOutcome α) (smaller ps : List (Parent α)) (p : Parent α) :
    outcome q floor o smaller (ps ++ [p]) =
      if p.isGround then
        { destroyed := (outcome q floor o smaller ps).destroyed + p.destroyed
          lost := (outcome q floor o smaller ps).lost +
            (p.destroyed - p.placed q floor (smaller ++ ps)) }
      else outcome q floor o smaller ps := by
  induction ps generalizing o smaller with
  | nil => simp [outcome]
  | cons r rest ih => simp [outcome, ih]

/-- Sends one smaller bin its part of the fragments. -/
def scatterTurn? (q floor : α) (b : SizeBins α) (p : Parent α) :
    List α × α → Nat → Option (List α × α)
  | (changes, placed), bin => do
    let lower ← b.edges[bin]?
    let upper ← b.edges[bin + 1]?
    match p.gain? q floor { lower, upper, destroyed := 0 } with
    | none => return (changes, placed)
    | some kg =>
      let change ← changes[bin]?
      return (changes.set bin (change + kg), placed + kg)

/-- The bins are the first ones of the grid, in their part as parents. -/
def Lead (ps : List (Parent α)) (b : SizeBins α) : Prop :=
  ∀ (k : Nat) p, ps[k]? = some p → b.edges[k]? = some p.lower ∧ b.edges[k + 1]? = some p.upper

omit [Scalar α] in
theorem Lead.take {ps : List (Parent α)} {b : SizeBins α} (lead : Lead ps b) (k : Nat) :
    Lead (ps.take k) b := by
  intro j p here
  rw [List.getElem?_take, Option.ite_none_right_eq_some] at here
  exact lead j p here.2

/-- The changes of the bins and the mass placed after `k` turns. The loop does not come to the
`rest`. -/
def scatterCourse (q floor : α) (p : Parent α) (smaller : List (Parent α))
    (changes rest : List α) (k : Nat) : List α × α :=
  (List.zipWith received (changes.take k) ((smaller.take k).map (p.gain? q floor)) ++
    (changes.drop k ++ rest), p.placed q floor (smaller.take k))

section Scattering
variable (q floor) {b : SizeBins α} {smaller : List (Parent α)} (lead : Lead smaller b)
  {changes : List α}
  (counted : changes.length = smaller.length) (rest : List α) (p : Parent α)
include lead counted

theorem scatterTurn?_course {k : Nat} (inside : k < smaller.length) :
    scatterTurn? q floor b p (scatterCourse q floor p smaller changes rest k) k =
      some (scatterCourse q floor p smaller changes rest (k + 1)) := by
  have child := List.getElem?_eq_getElem inside
  have change := List.getElem?_eq_getElem (counted ▸ inside)
  obtain ⟨lower, upper⟩ := lead k _ child
  have together : (changes.take k).length = ((smaller.take k).map (p.gain? q floor)).length := by
    simp [counted]
  have dealt : (List.zipWith received (changes.take k)
      ((smaller.take k).map (p.gain? q floor))).length = k := by
    simp only [List.length_zipWith, List.length_map, List.length_take]
    omega
  -- What a bin receives does not depend on what it loses itself.
  have same : p.gain? q floor
      { lower := smaller[k].lower, upper := smaller[k].upper, destroyed := 0 } =
        p.gain? q floor smaller[k] := rfl
  simp only [scatterCourse, scatterTurn?, take_succ_of_getElem? child,
    take_succ_of_getElem? change, drop_of_getElem? change, lower, upper, placed_concat,
    List.cons_append, getElem?_append_cons dealt, set_append_cons dealt, Option.bind_eq_bind,
    Option.bind_some, same, List.map_append, List.zipWith_append together]
  cases gain : p.gain? q floor smaller[k] <;> simp [received, gain]

theorem foldlM_scatterTurn? :
    (List.range smaller.length).foldlM (scatterTurn? q floor b p) (changes ++ rest, 0) =
      some (List.zipWith received changes (smaller.map (p.gain? q floor)) ++ rest,
        p.placed q floor smaller) := by
  have walked := foldlM_range_eq_some (scatterCourse q floor p smaller changes rest)
    fun k => scatterTurn?_course q floor lead counted rest p
  have all : changes.take smaller.length = changes := List.take_of_length_le (Nat.le_of_eq counted)
  have none : changes.drop smaller.length = [] := List.drop_of_length_le (Nat.le_of_eq counted)
  simpa [scatterCourse, all, none, placed] using walked

end Scattering

/-! ## Grinding -/

/-- Grinds one bin, with a loop over the smaller ones. -/
def grindTurn? (q floor fraction : α) (b : SizeBins α) :
    List α × GrindOutcome α → Nat → Option (List α × GrindOutcome α)
  | (changes, o), bin => do
    let m ← b.masses[bin]?
    let weight ← b.activeWeightAt? bin floor
    let lower ← b.edges[bin]?
    let upper ← b.edges[bin + 1]?
    let p : Parent α := { lower, upper, destroyed := m * weight * fraction }
    if p.isGround then
      let change ← changes[bin]?
      let (changes, placed) ← (List.range bin).foldlM (scatterTurn? q floor b p)
        (changes.set bin (change - p.destroyed), 0)
      return (changes, {
        destroyed := o.destroyed + p.destroyed
        lost := o.lost + (p.destroyed - placed) })
    else return (changes, o)

/-- The changes of the bins and the mass moved after `k` turns. -/
def grindCourse (q floor : α) (ps : List (Parent α)) (k : Nat) : List α × GrindOutcome α :=
  (changes q floor (ps.take k) ++ List.replicate (ps.length - k) 0,
    outcome q floor ⟨0, 0⟩ [] (ps.take k))

theorem grindTurn?_course {b : SizeBins α} {ps : List (Parent α)} (lead : Lead ps b) {k : Nat}
    {p : Parent α} (here : ps[k]? = some p) {m weight fraction : α}
    (held : b.masses[k]? = some m) (weighed : b.activeWeightAt? k floor = some weight)
    (destroyed : p.destroyed = m * weight * fraction) :
    grindTurn? q floor fraction b (grindCourse q floor ps k) k =
      some (grindCourse q floor ps (k + 1)) := by
  have inside : k < ps.length := (List.getElem?_eq_some_iff.mp here).1
  obtain ⟨lower, upper⟩ := lead k p here
  have counted : (ps.take k).length = k := List.length_take_of_le (Nat.le_of_lt inside)
  have dealt : (changes q floor (ps.take k)).length = k := by rw [length_changes, counted]
  -- No turn before this one has changed the bin.
  have untouched : List.replicate (ps.length - k) (0 : α) =
      0 :: List.replicate (ps.length - (k + 1)) 0 := by
    rw [← List.replicate_succ]
    congr 1
    omega
  have scattered := foldlM_scatterTurn? q floor (lead.take k)
    (length_changes q floor (ps.take k))
    ((0 - p.destroyed) :: List.replicate (ps.length - (k + 1)) 0) p
  rw [counted] at scattered
  simp only [grindCourse, grindTurn?, held, weighed, lower, upper, Option.bind_eq_bind,
    Option.bind_some, take_succ_of_getElem? here, outcome_concat, ← destroyed,
    untouched, getElem?_append_cons dealt, set_append_cons dealt]
  cases ground : p.isGround with
  | true => simp [scattered, changes_concat, change, ground]
  | false => simp [changes_concat_of_idle ground]

end Parent

namespace CollisionSettings

/-- `CollisionSettings.grind` as loops over the bins: one that gathers the changes and one that
makes them. -/
def grindByIndex? (s : CollisionSettings α) (b : SizeBins α) (tColl : Timescale α) (dt : Time α)
    (floor : α) : Option (SizeBins α × Option (GrindOutcome α)) :=
  let fraction := tColl.decayFraction dt.seconds
  if s.enabled = false ∨ fraction ≤ 0 then some (b, some ⟨0, 0⟩)
  else do
    let (changes, o) ← (List.range b.size).foldlM (Parent.grindTurn? s.slope floor fraction b)
      (List.replicate b.size 0, ⟨0, 0⟩)
    let (masses, fine) ← (List.range changes.length).foldlM (settleTurn? changes) (b.masses, true)
    return ({ b with masses }, if fine then some o else none)

variable {b : SizeBins α} (shaped : b.IsShaped)
include shaped

theorem grindTurn?_parents (q floor fraction : α) {k : Nat} (inside : k < b.size) :
    Parent.grindTurn? q floor fraction b
      (Parent.grindCourse q floor (parents b floor fraction) k) k =
    some (Parent.grindCourse q floor (parents b floor fraction) (k + 1)) := by
  have lead : Parent.Lead (parents b floor fraction) b := fun j p here => by
    obtain ⟨_, _, _, hspan, rfl⟩ := getElem?_parents_eq_some.mp here
    exact SizeBins.getElem?_spans_eq_some.mp hspan
  obtain ⟨m, span, held, hspan, _⟩ := shaped.exists_bin inside
  exact Parent.grindTurn?_course lead (getElem?_parents_eq_some.mpr ⟨m, span, held, hspan, rfl⟩)
    held (SizeBins.activeWeightAt?_of_span hspan floor) rfl

theorem foldlM_grindTurn? (q floor fraction : α) :
    (List.range b.size).foldlM (Parent.grindTurn? q floor fraction b)
      (List.replicate b.size 0, ⟨0, 0⟩) =
    some (Parent.changes q floor (parents b floor fraction),
      Parent.outcome q floor ⟨0, 0⟩ [] (parents b floor fraction)) := by
  have walked := foldlM_range_eq_some (Parent.grindCourse q floor (parents b floor fraction))
    fun k => grindTurn?_parents shaped q floor fraction
  have counted : (parents b floor fraction).length = b.size := by
    simp [parents, shaped.spans, SizeBins.size]
  have all : (parents b floor fraction).take b.size = parents b floor fraction :=
    List.take_of_length_le (Nat.le_of_eq counted)
  simpa [Parent.grindCourse, counted, all, Parent.changes, Parent.outcome] using walked

theorem grindByIndex?_eq (s : CollisionSettings α) (tColl : Timescale α) (dt : Time α) (floor : α) :
    s.grindByIndex? b tColl dt floor = some (s.grind b tColl dt floor) := by
  by_cases idle : s.enabled = false ∨ tColl.decayFraction dt.seconds ≤ 0
  · simp [grindByIndex?, grind, idle]
  · have counted : (Parent.changes s.slope floor
        (parents b floor (tColl.decayFraction dt.seconds))).length = b.masses.length := by
      simp [parents, shaped.spans]
    simp only [grindByIndex?, grind, if_neg idle, foldlM_grindTurn? shaped, Option.bind_eq_bind,
      Option.bind_some, foldlM_settleTurn? counted]
    rfl

end CollisionSettings

/-! ## Grids -/

namespace SizeBins

/-- Every loop over the bins finds what it looks up, and gives what the stage gives. -/
structure StaysInRange (b : SizeBins α) : Prop where
  weighs : ∀ floor, ∀ bin < b.size, ∃ weight, b.activeWeightAt? bin floor = some weight ∧
    (b.activeWeights floor)[bin]? = some weight
  retires : ∀ floor, b.retireByIndex? floor = some (b.retireBelow floor)
  injects : ∀ (s : SupplySettings α) kg floor,
    s.injectByIndex? b kg floor = some (s.inject b kg floor)
  grinds : ∀ (s : CollisionSettings α) tColl dt floor,
    s.grindByIndex? b tColl dt floor = some (s.grind b tColl dt floor)

theorem IsShaped.staysInRange {b : SizeBins α} (shaped : b.IsShaped) : b.StaysInRange where
  weighs floor bin inside := by
    obtain ⟨_, span, _, hspan, _⟩ := shaped.exists_bin inside
    have weight := activeWeightAt?_of_span hspan floor
    exact ⟨_, weight, (b.activeWeightAt?_eq bin floor).symm.trans weight⟩
  retires := retireByIndex?_eq shaped
  injects s kg floor := s.injectByIndex?_eq shaped kg floor
  grinds s tColl dt floor := CollisionSettings.grindByIndex?_eq shaped s tColl dt floor

end SizeBins
end DebrisDisk
