import DebrisDisk.Proofs.Exact.Enduring

/-!
# What a record reports

A consumer of a record, and the step itself, divide by timescales and multiply by fractions without
a further check. They may, because every timescale is made by a constructor that lets only positive
and finite durations pass, and because the length of a step is defined. `StepRecord.IsWellFormed`
collects what they rely on.

## Main results

* `Evaluation.IsOf.isWellFormed_recordOf`: the record of a step that does not go back in time is
  well formed.
* `Integrator.session_records_isWellFormed`: so are all records of an accepted run, in exact and in
  rounded arithmetic.
-/

namespace DebrisDisk
open Scalar
variable {α : Type} [Scalar α]

/-! ## Usable timescales -/

/-- The five timescales. -/
def TimescaleSet.all (t : TimescaleSet α) : List (Timescale α) :=
  [t.blow, t.solid, t.coll, t.drag, t.escape]

theorem TimescaleSet.IsProper.all {t : TimescaleSet α} (h : t.IsProper) :
    ∀ time ∈ t.all, time.IsProper := by
  simp only [TimescaleSet.all, List.mem_cons, List.not_mem_nil, or_false]
  rintro time (rfl | rfl | rfl | rfl | rfl)
  · exact h.blow
  · exact h.solid
  · exact h.coll
  · exact h.drag
  · exact h.escape

/-- The process does not act or takes a positive and finite time; the quotient by that time is
defined, and a step of the given length decays a fraction. -/
structure Timescale.IsUsable (t : Timescale α) (dt : α) : Prop where
  proper : t.IsProper
  quotient : ∀ s, t = .finite s → isNaN (dt / s) = false
  decay : IsFraction (t.decayFraction dt)

theorem Timescale.IsProper.isUsable [Fractional α] {t : Timescale α} (proper : t.IsProper) {dt : α}
    (defined : dt ≤ dt) : t.IsUsable dt where
  proper := proper
  quotient _ acts := isNaN_eq_false_of_le (proper.div_self defined acts)
  decay := proper.isFraction_decayFraction defined

/-! ## Records -/

/-- What a record and the evaluation behind it report of a step from the given bins. -/
structure StepRecord.IsWellFormed (r : StepRecord α) (c : RunConfig α) (e : Evaluation α)
    (bins : SizeBins α) : Prop where
  /-- The timescales that the record tells, and the shortest of them. -/
  times : ∀ t ∈ r.timescales.fastest :: r.timescales.all, t.IsUsable r.dt
  perBin : e.blowoutTimes.length = bins.centres.length
  /-- A step takes a fraction of what blows out of a bin. -/
  blowout : ∀ t ∈ e.blowoutTimes,
    t.IsUsable r.dt ∧ IsFraction (c.blowout.fastStep.fraction r.dt t)
  drag : ∀ size ∈ bins.centres,
    (c.sinks.gasDrag.timescale c.material.density size).IsUsable r.dt
  gate : IsFraction r.gate.gate
  nominal : IsFraction r.gate.nominalFraction
  loss : IsFraction r.gate.loss
  vapor : IsFraction r.phase.vaporFraction
  flux : IsFraction r.disk.fluxFactor
  skinFlux : IsFraction r.disk.skinFluxFactor
  /-- Nothing escapes from a disk of solids. -/
  escape : r.phase.tag = .solid → r.timescales.escape = .infinite

namespace Evaluation.IsOf
variable {e : Evaluation α} {c : RunConfig α} {selector : PressureSelector α} {state : DiskState α}

theorem length_blowoutTimes_centres (h : e.IsOf c selector state) :
    e.blowoutTimes.length = state.bins.centres.length := by
  simp [h.blowoutTimes, h.betas, RadiationSettings.binBlowout, RadiationSettings.binBetas]

theorem escape_of_solid (h : e.IsOf c selector state) (solid : e.phase.tag = .solid) :
    e.timescales.escape = .infinite := by
  rw [h.timescales, solid]
  rfl

variable [Fractional α]

theorem isFraction_vapor (h : e.IsOf c selector state) : IsFraction e.phase.vaporFraction := by
  obtain ⟨_, resolved, _⟩ := h.phase
  exact PhaseSettings.isFraction_vaporFraction resolved

theorem isFraction_flux (h : e.IsOf c selector state) :
    IsFraction e.shielding.fluxFactor ∧ IsFraction e.shielding.skinFluxFactor := by
  rw [h.shielding]
  exact c.shielding.isFraction_apply _

theorem isFraction_gate (h : e.IsOf c selector state) (dt : Time α) :
    IsFraction (e.blowoutPlan c dt).decision.gate :=
  isFraction_gateFactor h.isProper_timescales.blow (h.isProper_timescales.competing _)

theorem isFraction_nominal (h : e.IsOf c selector state) {dt : Time α}
    (defined : dt.seconds ≤ dt.seconds) :
    IsFraction (e.blowoutPlan c dt).decision.nominalFraction :=
  c.blowout.fastStep.isFraction_fraction h.isProper_timescales.blow defined

/-- The record of a step that does not go back in time is well formed. -/
theorem isWellFormed_recordOf (h : e.IsOf c selector state) {dt : Time α} (forward : 0 ≤ dt.seconds)
    (step : Nat) (after : DiskState α) (ledgerError : α) (flows : MassFlows α) :
    (e.recordOf c step dt after ledgerError flows).IsWellFormed c e state.bins := by
  have defined := (Ordered.le_self_of_le forward).2
  have proper := h.isProper_timescales
  exact {
    times := List.forall_mem_cons.mpr
      ⟨proper.isProper_fastest.isUsable defined, fun t ht => (proper.all t ht).isUsable defined⟩
    perBin := h.length_blowoutTimes_centres
    blowout := fun t ht =>
      have time := h.isProper_blowoutTimes t ht
      ⟨time.isUsable defined, c.blowout.fastStep.isFraction_fraction time defined⟩
    drag := fun size _ => (isProper_gasDragTimescale _ _ _).isUsable defined
    gate := h.isFraction_gate dt
    nominal := h.isFraction_nominal defined
    loss := Fractional.isFraction_mul (h.isFraction_gate dt) (h.isFraction_nominal defined)
    vapor := h.isFraction_vapor
    flux := h.isFraction_flux.1
    skinFlux := h.isFraction_flux.2
    escape := h.escape_of_solid }

end Evaluation.IsOf

/-! ## Whole runs -/

namespace Integrator
variable {σ : Type} [DiagnosticsSink α σ]

/-- **Records are well formed.** Every step that a session with an accepted run commits was made by
one call, from the evaluation of the state that the calls before it left. The five timescales of its
record, the blow-out time of every bin and the drag time of every bin are infinite or positive and
finite, the length of the step over each of them is defined, and the decay in the step is a
fraction. So are the share and the removed fractions that the gate decided, the blow-out fraction of
every bin, the vapor fraction and the two factors of the flux. Nothing escapes from solids. -/
theorem session_records_isWellFormed [Fractional α] {c : RunConfig α} {sink : σ}
    {start : Integrator α σ} (accepted : Integrator.new c sink = .ok start)
    (demands : List Demand) :
    ∀ r ∈ (start.session demands).trace, ∃ n s,
      let i := start.afterCalls n
      i.inputs = .ok s ∧ i.advance s = .ok r ∧ s.evaluation.IsOf c i.selector i.state ∧
      r.record.timescales = s.evaluation.timescales ∧ r.record.dt = s.dt.seconds ∧
      r.record.IsWellFormed c s.evaluation i.state.bins := by
  intro r member
  obtain ⟨p, first, _⟩ := isRunOf_new accepted
  obtain ⟨k, held⟩ := List.mem_iff_getElem?.mp member
  obtain ⟨_, s, ⟨n, rfl⟩, _, gathered, passed, _⟩ :=
    step_of_session (P := fun j => ∃ n, j = start.afterCalls n) ⟨0, rfl⟩
      (by rintro _ ⟨n, rfl⟩; exact ⟨n + 1, rfl⟩) held
  have run := isRunOf_afterCalls first n
  have inputs := inputs_eq_ok gathered
  have evaluation := inputs.evaluation
  obtain ⟨_, _, _, _, _, _, record⟩ := Evaluation.advance_eq_ok passed
  rw [run.config] at evaluation record
  refine ⟨n, s, gathered, passed, evaluation, by rw [record]; rfl, by rw [record]; rfl, ?_⟩
  rw [record]
  exact evaluation.isWellFormed_recordOf (forward_of_inputs run inputs) _ _ _ _

/-- The baseline run without a mass floor commits a step, and its record is well formed. -/
theorem exists_record_isWellFormed_enduring :
    ∃ (start : Integrator ℝ (Obliging ℝ)) (r : Committed ℝ) (n : ℕ) (s : StepInputs ℝ),
      Integrator.new (.enduring none) { answer := .ok () } = .ok start ∧
      (start.session [.step]).trace = [r] ∧ (start.afterCalls n).advance s = .ok r ∧
      r.record.IsWellFormed (.enduring none) s.evaluation (start.afterCalls n).state.bins := by
  obtain ⟨start, accepted, endures, _, stage, _⟩ :=
    exists_new_enduring (by simp : ∀ n, none = some n → 0 < n) ({ answer := .ok () } : Obliging ℝ)
  obtain ⟨r, trace⟩ := endures.exists_step (.inl stage)
  obtain ⟨n, s, _, passed, _, _, _, wellFormed⟩ :=
    session_records_isWellFormed accepted [.step] r (by simp [trace])
  exact ⟨start, r, n, s, accepted, trace, passed, wellFormed⟩

end Integrator
end DebrisDisk
