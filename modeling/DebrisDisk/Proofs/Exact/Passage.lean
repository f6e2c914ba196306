import DebrisDisk.Proofs.Exact.Gate
import DebrisDisk.Proofs.Exact.Grinding
import DebrisDisk.Proofs.Exact.Injection

/-!
# The stages of a step in exact arithmetic

Grains without a negative mass keep that through all seven stages of a step. No bin is ever asked
for more than it holds: retirement leaves a bin that blow-out acts on at least the mass from which
its removal was planned, and every later process asks for a fraction of what there is. So no
withdrawal is cut, no step is refused, and the flows account for every change of mass.

## Main results

* `Evaluation.passage_exact`: a step goes through, with flows that are not negative and that close.
-/

namespace DebrisDisk
open Scalar

/-- No process moved a negative mass. -/
structure MassFlows.IsNonneg (f : MassFlows ℝ) : Prop where
  supply : 0 ≤ f.supply
  blowout : 0 ≤ f.blowout
  sublimation : 0 ≤ f.sublimation
  collisions : 0 ≤ f.collisions
  floor : 0 ≤ f.floor
  gasDrag : 0 ≤ f.gasDrag
  hydroEscape : 0 ≤ f.hydroEscape

/-- A stage takes `kg` kilograms out of the bins, and leaves no negative mass. -/
structure SizeBins.Yields (before after : SizeBins ℝ) (kg : ℝ) : Prop where
  left : after.IsNonneg
  nonneg : 0 ≤ kg
  closes : after.masses.sum + kg = before.masses.sum

/-! ## Retirement -/

namespace SizeBins
variable {b : SizeBins ℝ}

private theorem sum_retired (below : ℝ × ℝ → Bool) {ms : List ℝ} {spans : List (ℝ × ℝ)}
    (enough : ms.length ≤ spans.length) :
    (List.zipWith (fun m span => if below span then 0 else m) ms spans).sum +
      (((ms.zip spans).filter (below ·.2)).map Prod.fst).sum = ms.sum := by
  induction ms generalizing spans with
  | nil => simp
  | cons m ms ih =>
    rcases spans with _ | ⟨span, spans⟩
    · simp at enough
    · have rest := ih (by simpa using enough)
      simp only [List.zipWith_cons_cons, List.zip_cons_cons, List.filter_cons, List.sum_cons]
      split_ifs
      · simp only [List.map_cons, List.sum_cons]
        linarith
      · linarith

/-- Retirement takes what it reports. -/
theorem retireBelow_yields (shaped : b.IsShaped) (nonneg : b.IsNonneg) (floor : ℝ) :
    b.Yields (b.retireBelow floor).1 (b.retireBelow floor).2 := by
  refine ⟨?_, ?_, ?_⟩
  · intro m hm
    obtain ⟨j, hj⟩ := List.mem_iff_getElem?.mp hm
    obtain ⟨m₀, _, held, _, rfl⟩ := (getElem?_retireBelow b floor j).mp hj
    split_ifs
    · exact le_rfl
    · exact nonneg m₀ (List.mem_of_getElem? held)
  · simp only [retireBelow, sum_real]
    refine List.sum_nonneg fun m hm => ?_
    obtain ⟨⟨m', span⟩, retired, rfl⟩ := List.mem_map.mp hm
    exact nonneg _ (List.of_mem_zip (List.mem_filter.mp retired).1).1
  · simp only [retireBelow, sum_real]
    exact sum_retired _ shaped.spans.ge

end SizeBins

/-! ## Covered withdrawals -/

namespace SizeBins
variable {b : SizeBins ℝ}

/-- Covered withdrawals take what they report, which is what was asked for. -/
theorem withdrawAll_yields {after : SizeBins ℝ} {requests : List (Option ℝ)}
    (left : after = (b.withdrawAll requests).1) (nonneg : b.IsNonneg)
    (covered : ∀ d ∈ draws b.masses requests, d.IsCovered) :
    ∃ kg, (b.withdrawAll requests).2 = some kg ∧ b.Yields after kg ∧
      kg = ((draws b.masses requests).map Draw.asked).sum := by
  subst left
  have asked : (draws b.masses requests).map Draw.given =
      (draws b.masses requests).map Draw.asked :=
    List.map_congr_left fun d hd => (covered d hd).given_eq
  have sum := sum_leave b.masses requests
  rw [asked] at sum
  rw [withdrawAll_eq fun d hd => (covered d hd).held_nonneg, asked, sum_real]
  refine ⟨_, rfl, ⟨leave_nonneg nonneg requests, List.sum_nonneg fun kg hkg => ?_, sum⟩, rfl⟩
  obtain ⟨d, hd, rfl⟩ := List.mem_map.mp hkg
  exact (covered d hd).1

/-- A bin holds every fraction of its active mass. -/
theorem draws_drain_covered (grid : b.IsGrid) (nonneg : b.IsNonneg) {fraction : ℝ → ℝ}
    (proper : ∀ centre, fraction centre ∈ Set.Icc (0 : ℝ) 1) (floor : ℝ) :
    ∀ d ∈ draws b.masses (b.drainRequests floor fraction), d.IsCovered := by
  intro d hd
  obtain ⟨j, span, centre, held, hspan, _, _, asked⟩ := mem_draws_drainRequests_iff.mp hd
  have mass := nonneg _ (List.mem_of_getElem? held)
  have weight := grid.activeWeight_mem (List.mem_of_getElem? hspan) floor
  have activeNonneg := mul_nonneg mass weight.1
  have active := mul_le_of_le_one_right mass weight.2
  have part := mul_le_of_le_one_right activeNonneg (proper centre).2
  rw [Draw.IsCovered, ← asked]
  exact ⟨mul_nonneg activeNonneg (proper centre).1, part.trans active⟩

theorem draws_escape_covered (grid : b.IsGrid) (nonneg : b.IsNonneg) (time : Timescale ℝ)
    (dt : Time ℝ) (floor : ℝ) :
    ∀ d ∈ draws b.masses (b.escapeRequests time dt floor), d.IsCovered := by
  simp only [escapeRequests]
  split_ifs
  · cases b.masses <;> simp [draws]
  · exact draws_drain_covered grid nonneg (fun _ => time.decayFraction_mem dt.seconds) floor

end SizeBins

theorem SublimationRates.draws_covered (r : SublimationRates ℝ) {b : SizeBins ℝ} (grid : b.IsGrid)
    (nonneg : b.IsNonneg) {dt : Time ℝ} (forward : 0 ≤ dt.seconds) (floor : ℝ) :
    ∀ d ∈ draws b.masses (r.requests b dt floor), d.IsCovered := by
  simp only [requests]
  split_ifs with idle
  · cases b.masses <;> simp [draws]
  · have shrinks : 0 ≤ r.shrinkRate * dt.seconds := mul_nonneg (not_le.mp idle).le forward
    exact SizeBins.draws_drain_covered grid nonneg (fun _ => shrinkLoss_mem shrinks) floor

theorem GasDragSettings.draws_covered (s : GasDragSettings ℝ) (density : ℝ) {b : SizeBins ℝ}
    (grid : b.IsGrid) (nonneg : b.IsNonneg) (dt : Time ℝ) (floor : ℝ) :
    ∀ d ∈ draws b.masses (s.requests density b dt floor), d.IsCovered := by
  simp only [requests]
  split_ifs
  · exact SizeBins.draws_drain_covered grid nonneg
      (fun centre => (s.timescale density centre).decayFraction_mem dt.seconds) floor
  · cases b.masses <;> simp [draws]

/-! ## A whole step -/

namespace Evaluation
variable {e : Evaluation ℝ} {c : RunConfig ℝ} {selector : PressureSelector ℝ} {state : DiskState ℝ}
  {dt : Time ℝ}

/-- Blow-out removes a fraction of what it acts on. -/
theorem removalOf_mem (e : Evaluation ℝ) (c : RunConfig ℝ) (dt : Time ℝ) (t : Timescale ℝ)
    {eligible : ℝ} (nonneg : 0 ≤ eligible) : e.removalOf c dt t eligible ∈ Set.Icc 0 eligible := by
  have gate := gateFactor_mem e.timescales.blow (c.blowout.gateMode.competing e.timescales)
  have fraction := c.blowout.fastStep.fraction_mem dt.seconds t
  rw [e.removalOf_eq c dt t nonneg]
  exact ⟨mul_nonneg (mul_nonneg gate.1 fraction.1) nonneg,
    mul_le_of_le_one_left nonneg (mul_le_one₀ gate.2 fraction.1 fraction.2)⟩

/-- A bin holds what blow-out was planned to remove from it, although it was planned before bins
were emptied and refilled. -/
theorem draws_blowout_covered (h : e.IsOf c selector state) (grid : state.bins.IsGrid)
    (nonneg : state.bins.IsNonneg) (dt : Time ℝ) (delivered : ℝ) :
    ∀ d ∈ DebrisDisk.draws (e.passage c dt delivered state.bins).supplied.masses
      ((e.removal c dt).map some), d.IsCovered := by
  intro d hd
  obtain ⟨j, held, asked⟩ := mem_draws_iff.mp hd
  rw [List.getElem?_map, Option.map_eq_some_iff] at asked
  obtain ⟨_, asked, same⟩ := asked
  obtain rfl := Option.some.inj same
  obtain ⟨t, m, span, _, hm, hspan, removed⟩ := (getElem?_removal_eq_some h).mp asked
  have retiredGrid := (SizeBins.sameGrid_retireBelow grid.shaped e.floor.size.metres).isGrid grid
  obtain ⟨left, hleft, most⟩ :=
    (c.supply.inject_exact retiredGrid delivered e.floor.size.metres).2.2 j _ held
  obtain ⟨m', span', hm', hspan', rfl⟩ := (SizeBins.getElem?_retireBelow _ _ j).mp hleft
  obtain rfl := Option.some.inj (hm'.symm.trans hm)
  obtain rfl := Option.some.inj (hspan'.symm.trans hspan)
  have mass := nonneg _ (List.mem_of_getElem? hm)
  have weight := grid.activeWeight_mem (List.mem_of_getElem? hspan) e.floor.size.metres
  have activeNonneg := mul_nonneg mass weight.1
  have eligible := h.eligibleFraction_mem
  have removal := removalOf_mem e c dt t (mul_nonneg activeNonneg eligible.1)
  rw [removed] at removal
  have active := removal.2.trans (mul_le_of_le_one_right activeNonneg eligible.2)
  refine ⟨removal.1, active.trans (le_trans ?_ most)⟩
  split_ifs with retired
  · simp [activeWeight, retired]
  · exact mul_le_of_le_one_right mass weight.2

private theorem map_asked_draws {held asked : List ℝ} (same : asked.length = held.length) :
    (DebrisDisk.draws held (asked.map some)).map Draw.asked = asked := by
  induction held generalizing asked with
  | nil => simp_all [DebrisDisk.draws]
  | cons m ms ih =>
    rcases asked with _ | ⟨kg, rest⟩
    · simp at same
    · simp [DebrisDisk.draws, ih (by simpa using same)]

section Passage
variable {delivered : ℝ} {p : Passage ℝ} (passes : e.passage c dt delivered state.bins = p)
include passes

private theorem isGrid_of_stage (grid : state.bins.IsGrid) : ∀ b ∈ p.stages, b.IsGrid := by
  subst passes
  exact fun b hb => (sameGrid_passage e c dt delivered grid.shaped b hb).isGrid grid

/-- Supply leaves no negative mass after retirement. -/
theorem supplied_isNonneg (grid : state.bins.IsGrid) (nonneg : state.bins.IsNonneg) :
    p.supplied.IsNonneg := by
  have retiredGrid : p.retired.IsGrid := isGrid_of_stage passes grid _ (by simp [Passage.stages])
  subst passes
  intro held hheld
  obtain ⟨j, hj⟩ := List.mem_iff_getElem?.mp hheld
  obtain ⟨m, hm, least⟩ :=
    (c.supply.inject_exact retiredGrid delivered e.floor.size.metres).2.2 j held hj
  have retired := SizeBins.retireBelow_yields grid.shaped nonneg e.floor.size.metres
  exact (retired.left m (List.mem_of_getElem? hm)).trans least

/-- Blow-out takes what was planned. -/
theorem blowout_yields (h : e.IsOf c selector state) (grid : state.bins.IsGrid)
    (nonneg : state.bins.IsNonneg) :
    ∃ kg, (p.supplied.withdrawAll ((e.removal c dt).map some)).2 = some kg ∧
      p.supplied.Yields p.blownOut kg ∧ kg = (e.removal c dt).sum := by
  have supplied := supplied_isNonneg passes grid nonneg
  subst passes
  obtain ⟨kg, blown, yields, planned⟩ := SizeBins.withdrawAll_yields rfl supplied
    (draws_blowout_covered h grid nonneg dt delivered)
  have same : state.bins.SameGrid (e.passage c dt delivered state.bins).supplied :=
    sameGrid_passage e c dt delivered grid.shaped _ (by simp [Passage.stages])
  refine ⟨kg, blown, yields, planned.trans ?_⟩
  rw [map_asked_draws]
  rw [Evaluation.length_removal h grid.shaped, same.size]

/-- Sublimation takes what it reports. -/
theorem sublimation_yields (grid : state.bins.IsGrid) (nonneg : p.blownOut.IsNonneg)
    (forward : 0 ≤ dt.seconds) :
    ∃ kg, (e.sublimation.apply p.blownOut dt e.floor.size.metres).2 = some kg ∧
      p.blownOut.Yields p.sublimated kg := by
  have blownOut : p.blownOut.IsGrid := isGrid_of_stage passes grid _ (by simp [Passage.stages])
  subst passes
  obtain ⟨kg, gone, yields, _⟩ := SizeBins.withdrawAll_yields passage_sublimated nonneg
    (e.sublimation.draws_covered blownOut nonneg forward e.floor.size.metres)
  exact ⟨kg, by rw [SublimationRates.apply_eq]; exact gone, yields⟩

/-- Grinding takes what it reports as lost. -/
theorem grinding_yields (grid : state.bins.IsGrid) (nonneg : p.sublimated.IsNonneg)
    (shallow : c.collisions.slope < 4) :
    ∃ ground, (c.collisions.grind p.sublimated e.timescales.coll dt e.floor.size.metres).2
        = some ground ∧ p.sublimated.Yields p.ground ground.lost := by
  have sublimated : p.sublimated.IsGrid :=
    isGrid_of_stage passes grid _ (by simp [Passage.stages])
  subst passes
  obtain ⟨left, ground, passed, lost, closes⟩ :=
    CollisionSettings.grind_exact sublimated nonneg shallow e.timescales.coll dt
      e.floor.size.metres
  exact ⟨ground, passed, ⟨left, lost, closes⟩⟩

/-- Gas drag takes what it reports. -/
theorem gasDrag_yields (grid : state.bins.IsGrid) (nonneg : p.ground.IsNonneg) :
    ∃ kg, (c.sinks.gasDrag.apply c.material.density p.ground dt e.floor.size.metres).2 = some kg ∧
      p.ground.Yields p.dragged kg := by
  have ground : p.ground.IsGrid := isGrid_of_stage passes grid _ (by simp [Passage.stages])
  subst passes
  obtain ⟨kg, drags, yields, _⟩ := SizeBins.withdrawAll_yields passage_dragged nonneg
    (c.sinks.gasDrag.draws_covered c.material.density ground nonneg dt e.floor.size.metres)
  exact ⟨kg, by rw [GasDragSettings.apply_eq]; exact drags, yields⟩

/-- Escape takes what it reports. -/
theorem escape_yields (grid : state.bins.IsGrid) (nonneg : p.dragged.IsNonneg) :
    ∃ kg, (p.dragged.escape e.timescales.escape dt e.floor.size.metres).2 = some kg ∧
      p.dragged.Yields p.escaped kg := by
  have dragged : p.dragged.IsGrid := isGrid_of_stage passes grid _ (by simp [Passage.stages])
  subst passes
  obtain ⟨kg, escapes, yields, _⟩ := SizeBins.withdrawAll_yields passage_escaped nonneg
    (SizeBins.draws_escape_covered dragged nonneg e.timescales.escape dt e.floor.size.metres)
  exact ⟨kg, by rw [SizeBins.escape_eq]; exact escapes, yields⟩

/-- The grains hold what a step asks them for, once no stage leaves a negative mass. -/
theorem draws_covered (h : e.IsOf c selector state) (grid : state.bins.IsGrid)
    (nonneg : state.bins.IsNonneg) (forward : 0 ≤ dt.seconds) (shallow : c.collisions.slope < 4)
    (stages : ∀ b ∈ p.stages, b.IsNonneg) :
    ∀ d ∈ e.draws c dt delivered state.bins, d.IsCovered := by
  have grids := isGrid_of_stage passes grid
  subst passes
  simp only [Passage.stages, List.mem_cons, List.not_mem_nil, or_false, forall_eq_or_imp,
    forall_eq] at grids stages
  obtain ⟨_, _, blownOutGrid, sublimatedGrid, groundGrid, draggedGrid, _⟩ := grids
  obtain ⟨_, _, blownOut, sublimated, ground, dragged, _⟩ := stages
  intro d hd
  simp only [draws, List.mem_append] at hd
  rcases hd with (((hd | hd) | hd) | hd) | hd
  · exact draws_blowout_covered h grid nonneg dt delivered d hd
  · exact e.sublimation.draws_covered blownOutGrid blownOut forward _ d hd
  · exact CollisionSettings.draws_grind_covered sublimatedGrid sublimated shallow _ dt _ d hd
  · exact c.sinks.gasDrag.draws_covered c.material.density groundGrid ground dt _ d hd
  · exact SizeBins.draws_escape_covered draggedGrid dragged e.timescales.escape dt _ d hd

/-- A step on grains without a negative mass goes through. All its stages leave no negative mass, no
withdrawal is cut, no flow is negative, blow-out takes what was planned, and the flows account for
the change of mass. -/
theorem passage_exact (h : e.IsOf c selector state) (grid : state.bins.IsGrid)
    (nonneg : state.bins.IsNonneg) (forward : 0 ≤ dt.seconds)
    (shallow : c.collisions.slope < 4) :
    (∀ b ∈ p.stages, b.IsNonneg) ∧ (∀ d ∈ e.draws c dt delivered state.bins, d.IsCovered) ∧
    ∃ flows, e.moveMass c dt delivered state.bins = some (p.escaped, flows) ∧
      flows.IsNonneg ∧ flows.blowout = (e.removal c dt).sum ∧
      p.escaped.masses.sum + flows.sinks = state.bins.masses.sum + flows.sources := by
  have retiredGrid : p.retired.IsGrid := isGrid_of_stage passes grid _ (by simp [Passage.stages])
  have supplied := supplied_isNonneg passes grid nonneg
  obtain ⟨blowout, blown, blownOut, planned⟩ := blowout_yields passes h grid nonneg
  obtain ⟨sublimation, gone, sublimated⟩ := sublimation_yields passes grid blownOut.left forward
  obtain ⟨pass, passed, ground⟩ := grinding_yields passes grid sublimated.left shallow
  obtain ⟨gasDrag, drags, dragged⟩ := gasDrag_yields passes grid ground.left
  obtain ⟨hydroEscape, escapes, escaped⟩ := escape_yields passes grid dragged.left
  have retired : state.bins.Yields p.retired (state.bins.retireBelow e.floor.size.metres).2 := by
    subst passes
    exact SizeBins.retireBelow_yields grid.shaped nonneg e.floor.size.metres
  obtain ⟨supplyNonneg, supplyCloses, _⟩ :=
    c.supply.inject_exact retiredGrid delivered e.floor.size.metres
  replace supplyCloses : p.supplied.masses.sum = p.retired.masses.sum +
      (c.supply.inject p.retired delivered e.floor.size.metres).2 := by
    subst passes
    exact supplyCloses
  have stages : ∀ b ∈ p.stages, b.IsNonneg := by
    simp only [Passage.stages, List.mem_cons, List.not_mem_nil, or_false, forall_eq_or_imp,
      forall_eq]
    exact ⟨retired.left, supplied, blownOut.left, sublimated.left, ground.left, dragged.left,
      escaped.left⟩
  refine ⟨stages, draws_covered passes h grid nonneg forward shallow stages,
    ⟨(c.supply.inject p.retired delivered e.floor.size.metres).2, blowout, sublimation, pass.lost,
      (state.bins.retireBelow e.floor.size.metres).2, gasDrag, hydroEscape⟩, ?_, ?_, planned, ?_⟩
  · subst passes
    exact moveMass_eq_some_iff.mpr
      ⟨rfl, rfl, rfl, blown, gone, ⟨pass, passed, rfl⟩, drags, escapes⟩
  · exact ⟨supplyNonneg, blownOut.nonneg, sublimated.nonneg, ground.nonneg, retired.nonneg,
      dragged.nonneg, escaped.nonneg⟩
  · simp only [MassFlows.sinks, MassFlows.sources]
    linarith [retired.closes, blownOut.closes, sublimated.closes, ground.closes, dragged.closes,
      escaped.closes]

end Passage
end Evaluation
end DebrisDisk
