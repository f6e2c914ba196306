import DebrisDisk.Proofs.Evaluation
import DebrisDisk.Proofs.Withdrawals

/-!
# The stages of a step

A step moves mass in seven stages, each from what the one before left: retirement of the bins below
the floor, supply, blow-out, sublimation, grinding, gas drag and escape. `Evaluation.passage` is the
list of the grains after each stage, and `Evaluation.draws` lists what the bins are asked for in a
whole step. What each process asks a bin for is stated bin by bin.

All statements hold for every carrier of numbers, also for one with undefined values.

## Main results

* `Evaluation.moveMass_eq_some_iff`: a step that is not refused goes through all stages.
* `Evaluation.moveMass_eq_none_iff`: a step is refused exactly when a bin is drawn from that does
  not hold at least zero.
-/

namespace DebrisDisk
open Scalar
variable {α : Type} [Scalar α]

/-! ## The requests of each process -/

namespace SizeBins

/-- What each bin is asked for when it is drained of a fraction of its active mass. -/
def drainRequests (b : SizeBins α) (floor : α) (fraction : α → α) : List (Option α) :=
  List.zipWith (fun m (wc : α × α) =>
      if isZero wc.1 then none else some (m * wc.1 * fraction wc.2)) b.masses
    ((b.activeWeights floor).zip b.centres)

theorem drain_eq (b : SizeBins α) (floor : α) (fraction : α → α) :
    b.drain floor fraction = b.withdrawAll (b.drainRequests floor fraction) := rfl

/-- An active bin is asked for a fraction of its active mass. -/
theorem mem_draws_drainRequests_iff {b : SizeBins α} {floor : α} {fraction : α → α}
    {d : Draw α} :
    d ∈ draws b.masses (b.drainRequests floor fraction) ↔
      ∃ (j : Nat) (span : α × α) (centre : α),
        b.masses[j]? = some d.held ∧ b.spans[j]? = some span ∧ b.centres[j]? = some centre ∧
        isZero (activeWeight span.1 span.2 floor) = false ∧
        d.held * activeWeight span.1 span.2 floor * fraction centre = d.asked := by
  simp only [mem_draws_iff, drainRequests, activeWeights, List.getElem?_zipWith_eq_some,
    List.getElem?_zip_eq_some, List.getElem?_map, Option.map_eq_some_iff, Prod.exists]
  constructor
  · rintro ⟨j, held, m, weight, centre, here, ⟨⟨lo, hi, span, rfl⟩, middle⟩, asked⟩
    obtain rfl : m = d.held := by simpa [here] using held
    split at asked
    · simp at asked
    · rename_i active
      exact ⟨j, lo, hi, centre, held, span, middle, by simpa using active, by simpa using asked⟩
  · rintro ⟨j, lo, hi, centre, held, span, middle, active, asked⟩
    exact ⟨j, held, d.held, _, centre, held, ⟨⟨lo, hi, span, rfl⟩, middle⟩, by simp [active, asked]⟩

@[simp] theorem withdrawAll_nil (b : SizeBins α) : b.withdrawAll [] = (b, some 0) := by
  obtain ⟨edges, centres, masses, density⟩ := b
  cases masses <;> rfl

theorem withdrawAll_eq_none_iff (b : SizeBins α) (requests : List (Option α)) :
    (b.withdrawAll requests).2 = none ↔ ∃ d ∈ draws b.masses requests, ¬ 0 ≤ d.held :=
  DebrisDisk.withdrawAll_eq_none_iff 0 b.masses requests

/-- Bins that hold at least zero give what they are asked for, within what they hold. -/
theorem withdrawAll_eq {b : SizeBins α} {requests : List (Option α)}
    (fine : ∀ d ∈ draws b.masses requests, 0 ≤ d.held) :
    b.withdrawAll requests = ({ b with masses := leave b.masses requests },
      some (sum ((draws b.masses requests).map Draw.given))) := by
  simp only [withdrawAll]
  rw [DebrisDisk.withdrawAll_eq 0 fine]
  rfl

/-- What each bin is asked for by escape. -/
def escapeRequests (b : SizeBins α) (time : Timescale α) (dt : Time α) (floor : α) :
    List (Option α) :=
  if time.decayFraction dt.seconds ≤ 0 then []
  else b.drainRequests floor fun _ => time.decayFraction dt.seconds

theorem escape_eq (b : SizeBins α) (time : Timescale α) (dt : Time α) (floor : α) :
    b.escape time dt floor = b.withdrawAll (b.escapeRequests time dt floor) := by
  by_cases idle : time.decayFraction dt.seconds ≤ 0
  · simp [escape, escapeRequests, idle]
  · simp [escape, escapeRequests, idle, drain_eq]

end SizeBins

namespace SublimationRates

/-- What each bin is asked for by sublimation. -/
def requests (r : SublimationRates α) (bins : SizeBins α) (dt : Time α) (floor : α) :
    List (Option α) :=
  if r.shrinkRate ≤ 0 then []
  else bins.drainRequests floor fun centre => shrinkLoss centre (r.shrinkRate * dt.seconds)

theorem apply_eq (r : SublimationRates α) (bins : SizeBins α) (dt : Time α) (floor : α) :
    r.apply bins dt floor = bins.withdrawAll (r.requests bins dt floor) := by
  by_cases idle : r.shrinkRate ≤ 0
  · simp [apply, requests, idle]
  · simp [apply, requests, idle, SizeBins.drain_eq]

end SublimationRates

namespace GasDragSettings

/-- What each bin is asked for by gas drag. -/
def requests (s : GasDragSettings α) (density : α) (bins : SizeBins α) (dt : Time α) (floor : α) :
    List (Option α) :=
  if s.enabled then
    bins.drainRequests floor fun centre => (s.timescale density centre).decayFraction dt.seconds
  else []

theorem apply_eq (s : GasDragSettings α) (density : α) (bins : SizeBins α) (dt : Time α)
    (floor : α) :
    s.apply density bins dt floor = bins.withdrawAll (s.requests density bins dt floor) := by
  by_cases active : s.enabled
  · simp [apply, requests, active, SizeBins.drain_eq]
  · simp [apply, requests, active]

end GasDragSettings

namespace Parent

@[simp] theorem length_changes (q floor : α) (ps : List (Parent α)) :
    (changes q floor ps).length = ps.length := by
  induction ps with
  | nil => rfl
  | cons p larger ih => simp [changes, ih]

/-- A bin changes by what the larger ones send it. -/
theorem getElem?_changes (q floor : α) (ps : List (Parent α)) (j : Nat) :
    (changes q floor ps)[j]? = ps[j]?.map fun p => p.change q floor (ps.drop (j + 1)) := by
  induction ps generalizing j with
  | nil => simp [changes]
  | cons p larger ih => cases j <;> simp [changes, ih]

end Parent

namespace CollisionSettings

theorem getElem?_parents_eq_some {bins : SizeBins α} {floor fraction : α} {j : Nat}
    {p : Parent α} :
    (parents bins floor fraction)[j]? = some p ↔ ∃ (m : α) (span : α × α),
      bins.masses[j]? = some m ∧ bins.spans[j]? = some span ∧
      { lower := span.1, upper := span.2
        destroyed := m * activeWeight span.1 span.2 floor * fraction } = p := by
  simp only [parents, List.getElem?_zipWith_eq_some]

/-- The change of each bin in one pass. -/
def changes (s : CollisionSettings α) (bins : SizeBins α) (tColl : Timescale α) (dt : Time α)
    (floor : α) : List α :=
  if s.enabled = false ∨ tColl.decayFraction dt.seconds ≤ 0 then []
  else Parent.changes s.slope floor (parents bins floor (tColl.decayFraction dt.seconds))

/-- The mass that one pass moves. -/
def moved (s : CollisionSettings α) (bins : SizeBins α) (tColl : Timescale α) (dt : Time α)
    (floor : α) : GrindOutcome α :=
  if s.enabled = false ∨ tColl.decayFraction dt.seconds ≤ 0 then ⟨0, 0⟩
  else Parent.outcome s.slope floor ⟨0, 0⟩ []
    (parents bins floor (tColl.decayFraction dt.seconds))

theorem grind_eq (s : CollisionSettings α) (bins : SizeBins α) (tColl : Timescale α)
    (dt : Time α) (floor : α) :
    s.grind bins tColl dt floor =
      ({ bins with masses := (settle bins.masses (s.changes bins tColl dt floor)).1 },
        if (settle bins.masses (s.changes bins tColl dt floor)).2
        then some (s.moved bins tColl dt floor) else none) := by
  by_cases idle : s.enabled = false ∨ tColl.decayFraction dt.seconds ≤ 0
  · obtain ⟨edges, centres, masses, density⟩ := bins
    cases masses <;> simp [grind, changes, moved, idle, settle]
  · simp [grind, changes, moved, idle]

theorem grind_eq_none_iff (s : CollisionSettings α) (bins : SizeBins α) (tColl : Timescale α)
    (dt : Time α) (floor : α) :
    (s.grind bins tColl dt floor).2 = none ↔
      ∃ d ∈ draws bins.masses ((s.changes bins tColl dt floor).map withdrawal?), ¬ 0 ≤ d.held := by
  rw [grind_eq, ← settle_eq_false_iff]
  simp

/-- Bins that hold at least zero are ground without refusal. -/
theorem grind_of_fine {s : CollisionSettings α} {bins : SizeBins α} {tColl : Timescale α}
    {dt : Time α} {floor : α}
    (fine : ∀ d ∈ draws bins.masses ((s.changes bins tColl dt floor).map withdrawal?),
      0 ≤ d.held) :
    s.grind bins tColl dt floor =
      ({ bins with masses := adjust bins.masses (s.changes bins tColl dt floor) },
        some (s.moved bins tColl dt floor)) := by
  rw [grind_eq, settle_eq fine]
  simp

end CollisionSettings

/-! ## The grid stays -/

namespace SizeBins

/-- There is a mass and a centre for each pair of neighbouring edges. -/
structure IsShaped (b : SizeBins α) : Prop where
  spans : b.spans.length = b.masses.length
  centres : b.centres.length = b.masses.length

/-- The same grid with as many masses. -/
structure SameGrid (b b' : SizeBins α) : Prop where
  edges : b'.edges = b.edges
  centres : b'.centres = b.centres
  density : b'.density = b.density
  size : b'.masses.length = b.masses.length

namespace SameGrid
variable {a b c : SizeBins α}

omit [Scalar α] in
theorem refl (a : SizeBins α) : a.SameGrid a := ⟨rfl, rfl, rfl, rfl⟩

omit [Scalar α] in
theorem trans (h : a.SameGrid b) (h' : b.SameGrid c) : a.SameGrid c :=
  ⟨h'.edges.trans h.edges, h'.centres.trans h.centres, h'.density.trans h.density,
    h'.size.trans h.size⟩

omit [Scalar α] in
theorem spans (h : a.SameGrid b) : b.spans = a.spans := by
  simp [SizeBins.spans, h.edges]

omit [Scalar α] in
theorem isShaped (h : a.SameGrid b) (shaped : a.IsShaped) : b.IsShaped where
  spans := by rw [h.spans, h.size, shaped.spans]
  centres := by rw [h.centres, h.size, shaped.centres]

end SameGrid

theorem sameGrid_retireBelow {b : SizeBins α} (shaped : b.IsShaped) (floor : α) :
    b.SameGrid (b.retireBelow floor).1 :=
  ⟨rfl, rfl, rfl, by simp [retireBelow, shaped.spans]⟩

/-- Retirement empties the bins wholly below the floor. -/
theorem getElem?_retireBelow (b : SizeBins α) (floor : α) (j : Nat) {m : α} :
    (b.retireBelow floor).1.masses[j]? = some m ↔
      ∃ m₀ span, b.masses[j]? = some m₀ ∧ b.spans[j]? = some span ∧
        (if span.2 ≤ floor then 0 else m₀) = m := by
  simp [retireBelow, List.getElem?_zipWith_eq_some]

theorem sameGrid_withdrawAll (b : SizeBins α) (requests : List (Option α)) :
    b.SameGrid (b.withdrawAll requests).1 :=
  ⟨rfl, rfl, rfl, length_withdrawAll 0 b.masses requests⟩

/-- Logarithmic spacing gives empty bins. -/
theorem logSpaced_eq_ok {low high : Length α} {n : Nat} {density : Density α} {b : SizeBins α}
    (h : logSpaced low high n density = .ok b) :
    (0 < low.metres ∧ low.metres < high.metres ∧ Scalar.isFinite high.metres = true) ∧ n ≠ 0 ∧
      b.IsShaped ∧ b.edges = logEdges low.metres high.metres n ∧ b.masses = List.replicate n 0 := by
  simp only [logSpaced, bind_eq_ok_iff, require_eq_ok_iff, exists_const, pure, Except.pure,
    Except.ok.injEq] at h
  obtain ⟨range, some, _, rfl⟩ := h
  have counted : (logEdges low.metres high.metres n).length = n + 1 := by simp [logEdges]
  exact ⟨range, some, ⟨by simp [spans, counted], by simp [geometricMeans, counted]⟩, rfl, rfl⟩

/-- A power law fills the bins in proportion to its shares. -/
theorem withPowerLaw_eq_ok {b b' : SizeBins α} {total : Mass α} {q : α} {lower : Length α}
    (h : b.withPowerLaw total q lower = .ok b') :
    b' = { b with masses := List.zipWith (fun _ w => total.kilograms * w) b.masses
                              (b.powerLawWeights lower.metres q) } := by
  simp only [withPowerLaw, bind_eq_ok_iff, require_eq_ok_iff, exists_const, pure, Except.pure,
    Except.ok.injEq] at h
  exact h.2.symm

end SizeBins

@[simp] theorem SizeBins.length_powerLawWeights (b : SizeBins α) (floor q : α) :
    (b.powerLawWeights floor q).length = b.spans.length := by
  simp only [powerLawWeights]
  split <;> simp

@[simp] theorem SupplySettings.length_shares (s : SupplySettings α) (b : SizeBins α) (floor : α) :
    (s.shares b floor).length = b.spans.length := by
  simp only [shares]
  split <;> simp [SizeBins.activeWeights]

theorem SizeBins.sameGrid_withPowerLaw {b b' : SizeBins α} (shaped : b.IsShaped) {total : Mass α}
    {q : α} {lower : Length α} (h : b.withPowerLaw total q lower = .ok b') : b.SameGrid b' := by
  rw [withPowerLaw_eq_ok h]
  exact ⟨rfl, rfl, rfl, by simp [shaped.spans]⟩

theorem SupplySettings.sameGrid_inject (s : SupplySettings α) {b : SizeBins α}
    (shaped : b.IsShaped) (kg floor : α) : b.SameGrid (s.inject b kg floor).1 := by
  simp only [inject]
  split
  · exact .refl b
  · split
    · exact .refl b
    · exact ⟨rfl, rfl, rfl, by simp [shaped.spans]⟩

theorem CollisionSettings.sameGrid_grind (s : CollisionSettings α) (b : SizeBins α)
    (tColl : Timescale α) (dt : Time α) (floor : α) : b.SameGrid (s.grind b tColl dt floor).1 := by
  rw [grind_eq]
  exact ⟨rfl, rfl, rfl, length_settle b.masses _⟩

/-! ## The passage through the stages -/

/-- The grains after each stage of a step. -/
structure Passage (α : Type) where
  retired : SizeBins α
  supplied : SizeBins α
  blownOut : SizeBins α
  sublimated : SizeBins α
  ground : SizeBins α
  dragged : SizeBins α
  escaped : SizeBins α

omit [Scalar α] in
/-- The stages in order. -/
def Passage.stages (p : Passage α) : List (SizeBins α) :=
  [p.retired, p.supplied, p.blownOut, p.sublimated, p.ground, p.dragged, p.escaped]

namespace Evaluation

/-- The mass that blow-out is to remove from each bin. -/
def removal (e : Evaluation α) (c : RunConfig α) (dt : Time α) : List α :=
  (e.blowoutPlan c dt).removal

/-- What blow-out removes from a bin that leaves within the time `t` and holds `eligible`
kilograms on which it acts. -/
def removalOf (e : Evaluation α) (c : RunConfig α) (dt : Time α) (t : Timescale α)
    (eligible : α) : α :=
  match c.blowout.binRegime? dt.seconds t eligible with
  | some r =>
    gateFactor e.timescales.blow (c.blowout.gateMode.competing e.timescales) * r.fraction * eligible
  | none => 0

/-- Blow-out acts on a part of the active mass of each bin. -/
theorem getElem?_removal_eq_some {e : Evaluation α} {c : RunConfig α}
    {selector : PressureSelector α} {state : DiskState α} (h : e.IsOf c selector state)
    {dt : Time α} {j : Nat} {kg : α} :
    (e.removal c dt)[j]? = some kg ↔ ∃ (t : Timescale α) (m : α) (span : α × α),
      e.blowoutTimes[j]? = some t ∧ state.bins.masses[j]? = some m ∧
      state.bins.spans[j]? = some span ∧
      e.removalOf c dt t (m * activeWeight span.1 span.2 e.floor.size.metres * e.eligibleFraction)
        = kg := by
  simp only [removal, blowoutPlan, BlowoutSettings.plan, h.eligible, SizeBins.activeMasses,
    SizeBins.activeWeights, List.getElem?_map, Option.map_eq_some_iff, List.getElem?_zip_eq_some,
    List.getElem?_zipWith_eq_some, Prod.exists]
  constructor
  · rintro ⟨t, _, ⟨time, ⟨_, ⟨m, _, mass, ⟨lo, hi, span, rfl⟩, rfl⟩, rfl⟩⟩, asked⟩
    exact ⟨t, m, lo, hi, time, mass, span, asked⟩
  · rintro ⟨t, m, lo, hi, time, mass, span, asked⟩
    exact ⟨t, _, ⟨time, _, ⟨m, _, mass, ⟨lo, hi, span, rfl⟩, rfl⟩, rfl⟩, asked⟩

/-- There is a blow-out time for each bin. -/
theorem IsOf.length_blowoutTimes {e : Evaluation α} {c : RunConfig α}
    {selector : PressureSelector α} {state : DiskState α} (h : e.IsOf c selector state)
    (shaped : state.bins.IsShaped) : e.blowoutTimes.length = state.bins.masses.length := by
  simp [h.blowoutTimes, h.betas, RadiationSettings.binBlowout, RadiationSettings.binBetas,
    shaped.centres]

/-- There is a removal planned for each bin. -/
theorem length_removal {e : Evaluation α} {c : RunConfig α} {selector : PressureSelector α}
    {state : DiskState α} {dt : Time α} (h : e.IsOf c selector state)
    (shaped : state.bins.IsShaped) : (e.removal c dt).length = state.bins.masses.length := by
  simp [removal, blowoutPlan, BlowoutSettings.plan, h.length_blowoutTimes shaped, h.eligible,
    SizeBins.activeMasses, SizeBins.activeWeights, shaped.spans]

/-- The grains as they go through the stages. -/
def passage (e : Evaluation α) (c : RunConfig α) (dt : Time α) (delivered : α)
    (bins : SizeBins α) : Passage α :=
  let floor := e.floor.size.metres
  let retired := (bins.retireBelow floor).1
  let supplied := (c.supply.inject retired delivered floor).1
  let blownOut := (supplied.withdrawAll ((e.removal c dt).map some)).1
  let sublimated := (e.sublimation.apply blownOut dt floor).1
  let ground := (c.collisions.grind sublimated e.timescales.coll dt floor).1
  let dragged := (c.sinks.gasDrag.apply c.material.density ground dt floor).1
  let escaped := (dragged.escape e.timescales.escape dt floor).1
  { retired, supplied, blownOut, sublimated, ground, dragged, escaped }

/-- Every request of a step that a bin meets, in the order in which they are made. -/
def draws (e : Evaluation α) (c : RunConfig α) (dt : Time α) (delivered : α)
    (bins : SizeBins α) : List (Draw α) :=
  let floor := e.floor.size.metres
  let p := e.passage c dt delivered bins
  DebrisDisk.draws p.supplied.masses ((e.removal c dt).map some)
    ++ DebrisDisk.draws p.blownOut.masses (e.sublimation.requests p.blownOut dt floor)
    ++ DebrisDisk.draws p.sublimated.masses
      ((c.collisions.changes p.sublimated e.timescales.coll dt floor).map withdrawal?)
    ++ DebrisDisk.draws p.ground.masses
      (c.sinks.gasDrag.requests c.material.density p.ground dt floor)
    ++ DebrisDisk.draws p.dragged.masses (p.dragged.escapeRequests e.timescales.escape dt floor)

variable {e : Evaluation α} {c : RunConfig α} {dt : Time α} {delivered : α} {bins : SizeBins α}

theorem passage_sublimated : (e.passage c dt delivered bins).sublimated =
    ((e.passage c dt delivered bins).blownOut.withdrawAll (e.sublimation.requests
      (e.passage c dt delivered bins).blownOut dt e.floor.size.metres)).1 := by
  rw [← SublimationRates.apply_eq]
  rfl

theorem masses_passage_ground : (e.passage c dt delivered bins).ground.masses =
    (settle (e.passage c dt delivered bins).sublimated.masses (c.collisions.changes
      (e.passage c dt delivered bins).sublimated e.timescales.coll dt e.floor.size.metres)).1 :=
  congrArg (fun p => p.1.masses) (c.collisions.grind_eq (e.passage c dt delivered bins).sublimated
    e.timescales.coll dt e.floor.size.metres)

theorem passage_dragged : (e.passage c dt delivered bins).dragged =
    ((e.passage c dt delivered bins).ground.withdrawAll (c.sinks.gasDrag.requests
      c.material.density (e.passage c dt delivered bins).ground dt e.floor.size.metres)).1 := by
  rw [← GasDragSettings.apply_eq]
  rfl

theorem passage_escaped : (e.passage c dt delivered bins).escaped =
    ((e.passage c dt delivered bins).dragged.withdrawAll
      ((e.passage c dt delivered bins).dragged.escapeRequests e.timescales.escape dt
        e.floor.size.metres)).1 := by
  rw [← SizeBins.escape_eq]
  rfl

/-- No stage touches the grid. -/
theorem sameGrid_passage (e : Evaluation α) (c : RunConfig α) (dt : Time α) (delivered : α)
    {bins : SizeBins α} (shaped : bins.IsShaped) :
    ∀ b ∈ (e.passage c dt delivered bins).stages, bins.SameGrid b := by
  have retired : bins.SameGrid (e.passage c dt delivered bins).retired :=
    SizeBins.sameGrid_retireBelow shaped _
  have supplied := retired.trans
    (c.supply.sameGrid_inject (retired.isShaped shaped) delivered e.floor.size.metres)
  have blownOut := supplied.trans
    (SizeBins.sameGrid_withdrawAll _ ((e.removal c dt).map some))
  have sublimated : bins.SameGrid (e.passage c dt delivered bins).sublimated := by
    rw [passage_sublimated]
    exact blownOut.trans (SizeBins.sameGrid_withdrawAll _ _)
  have ground := sublimated.trans
    (c.collisions.sameGrid_grind _ e.timescales.coll dt e.floor.size.metres)
  have dragged : bins.SameGrid (e.passage c dt delivered bins).dragged := by
    rw [passage_dragged]
    exact ground.trans (SizeBins.sameGrid_withdrawAll _ _)
  have escaped : bins.SameGrid (e.passage c dt delivered bins).escaped := by
    rw [passage_escaped]
    exact dragged.trans (SizeBins.sameGrid_withdrawAll _ _)
  intro b hb
  simp only [Passage.stages, List.mem_cons, List.not_mem_nil, or_false] at hb
  rcases hb with rfl | rfl | rfl | rfl | rfl | rfl | rfl
  · exact retired
  · exact supplied
  · exact blownOut
  · exact sublimated
  · exact ground
  · exact dragged
  · exact escaped

/-- A step that is not refused goes through all stages, and each gives its flow. -/
theorem moveMass_eq_some_iff {after : SizeBins α} {flows : MassFlows α} :
    e.moveMass c dt delivered bins = some (after, flows) ↔
      let floor := e.floor.size.metres
      let p := e.passage c dt delivered bins
      after = p.escaped ∧
      (bins.retireBelow floor).2 = flows.floor ∧
      (c.supply.inject p.retired delivered floor).2 = flows.supply ∧
      (p.supplied.withdrawAll ((e.removal c dt).map some)).2 = some flows.blowout ∧
      (e.sublimation.apply p.blownOut dt floor).2 = some flows.sublimation ∧
      (∃ ground, (c.collisions.grind p.sublimated e.timescales.coll dt floor).2 = some ground ∧
        ground.lost = flows.collisions) ∧
      (c.sinks.gasDrag.apply c.material.density p.ground dt floor).2 = some flows.gasDrag ∧
      (p.dragged.escape e.timescales.escape dt floor).2 = some flows.hydroEscape := by
  obtain ⟨supply, blowout, sublimation, collisions, floor, gasDrag, hydroEscape⟩ := flows
  simp only [moveMass]
  simp only [Option.bind_eq_bind, Option.bind_eq_some_iff, Option.pure_def, Option.some.injEq,
    Prod.mk.injEq, MassFlows.mk.injEq]
  constructor
  · rintro ⟨_, blown, _, sublimated, ground, groundBy, _, dragged, _, escaped, rfl,
      rfl, rfl, rfl, rfl, rfl, rfl, rfl⟩
    exact ⟨rfl, rfl, rfl, blown, sublimated, ⟨ground, groundBy, rfl⟩, dragged, escaped⟩
  · rintro ⟨rfl, rfl, rfl, blown, sublimated, ⟨ground, groundBy, rfl⟩, dragged, escaped⟩
    exact ⟨_, blown, _, sublimated, ground, groundBy, _, dragged, _, escaped, rfl,
      rfl, rfl, rfl, rfl, rfl, rfl, rfl⟩

/-- A step is refused exactly when a bin is drawn from that does not hold at least zero. -/
theorem moveMass_eq_none_iff :
    e.moveMass c dt delivered bins = none ↔
      ∃ d ∈ e.draws c dt delivered bins, ¬ 0 ≤ d.held := by
  have chain : e.moveMass c dt delivered bins = none ↔
      let floor := e.floor.size.metres
      let p := e.passage c dt delivered bins
      (p.supplied.withdrawAll ((e.removal c dt).map some)).2 = none ∨
      (e.sublimation.apply p.blownOut dt floor).2 = none ∨
      (c.collisions.grind p.sublimated e.timescales.coll dt floor).2 = none ∨
      (c.sinks.gasDrag.apply c.material.density p.ground dt floor).2 = none ∨
      (p.dragged.escape e.timescales.escape dt floor).2 = none := by
    constructor
    · intro refused
      refine Decidable.byContradiction fun given => ?_
      simp only [not_or, Option.ne_none_iff_exists'] at given
      obtain ⟨⟨blowout, blown⟩, ⟨sublimation, sublimated⟩, ⟨ground, groundBy⟩,
        ⟨gasDrag, dragged⟩, ⟨hydroEscape, escaped⟩⟩ := given
      have moved : e.moveMass c dt delivered bins
          = some (_, ⟨_, blowout, sublimation, ground.lost, _, gasDrag, hydroEscape⟩) :=
        moveMass_eq_some_iff.mpr
          ⟨rfl, rfl, rfl, blown, sublimated, ⟨ground, groundBy, rfl⟩, dragged, escaped⟩
      rw [refused] at moved
      simp at moved
    · intro stuck
      cases moved : e.moveMass c dt delivered bins with
      | none => rfl
      | some r =>
        obtain ⟨_, _, _, blown, sublimated, ⟨ground, groundBy, _⟩, dragged, escaped⟩ :=
          moveMass_eq_some_iff.mp moved
        simp only [blown, sublimated, groundBy, dragged, escaped, reduceCtorEq, or_false] at stuck
  rw [chain]
  simp only [draws, List.mem_append, or_and_right, exists_or, SublimationRates.apply_eq,
    GasDragSettings.apply_eq, SizeBins.escape_eq, SizeBins.withdrawAll_eq_none_iff,
    CollisionSettings.grind_eq_none_iff, or_assoc]

end Evaluation
end DebrisDisk
