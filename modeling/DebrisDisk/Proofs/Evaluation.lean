import DebrisDisk.Proofs.Outcome
import DebrisDisk.Run.Evaluation

/-!
# What an evaluation holds

`Evaluation.IsOf` says for every entry of an evaluation how it follows from the committed state and
the other entries. It turns the chain of computations that makes an evaluation, two of which may
fail, into equations that can be used one at a time.

A timescale is proper when it stands for a positive and finite duration or for no action. All
timescales of an evaluation are proper, because the two constructors for durations and rates let
nothing else pass.

## Main results

* `RunConfig.evaluate_eq_ok`: an evaluation that is made satisfies its equations.
* `Evaluation.IsOf.isProper_timescales`: its timescales are proper.
-/

namespace DebrisDisk
open Scalar
variable {α : Type} [Scalar α]

/-! ## Proper timescales -/

namespace Timescale

/-- A duration is positive and finite. -/
def IsProper (t : Timescale α) : Prop := ∀ s, t = finite s → Scalar.isFinite s = true ∧ 0 < s

@[simp] theorem isProper_infinite : (infinite : Timescale α).IsProper := by
  intro s h
  cases h

@[simp] theorem isProper_ofSeconds (s : α) : (ofSeconds s).IsProper := by
  intro s' h
  simp only [ofSeconds] at h
  split at h
  · rename_i usable
    cases h
    exact usable
  · cases h

@[simp] theorem isProper_ofRate (r : α) : (ofRate r).IsProper := by
  simp only [ofRate]
  split
  · exact isProper_ofSeconds _
  · exact isProper_infinite

theorem IsProper.shorter {t t' : Timescale α} (h : t.IsProper) (h' : t'.IsProper) :
    (t.shorter t').IsProper := by
  cases t with
  | infinite => exact h'
  | finite a =>
    cases t' with
    | infinite => exact h
    | finite b =>
      intro s hs
      simp only [Timescale.shorter, finite.injEq, fmin] at hs
      split at hs
      · exact h s (by rw [hs])
      · split at hs
        · exact h s (by rw [hs])
        · exact h' s (by rw [hs])

end Timescale

/-- All of the combined rate is that of blow-out when nothing competes. -/
@[simp] theorem gateFactor_infinite (blow : Timescale α) : gateFactor blow .infinite = 1 := by
  cases blow <;> rfl

theorem isProper_aggregateTimescale (times : List (Timescale α)) (eligible : List α) :
    (aggregateTimescale times eligible).IsProper := by
  simp only [aggregateTimescale]
  split <;> simp

theorem isProper_sublimationTimescale (size : Length α) (shrinkRate : α) :
    (sublimationTimescale size shrinkRate).IsProper := by
  simp only [sublimationTimescale]
  split <;> simp

theorem isProper_blowoutTimescale (regime : BetaRegime α) (c : BlowoutEfficiency α)
    (efficiency : α) (omega : AngularVelocity α) :
    (blowoutTimescale regime c efficiency omega).IsProper := by
  cases regime <;> simp [blowoutTimescale]

theorem isProper_collisionTimescale (s : CollisionSettings α) (regime : OpticalDepthRegime α)
    (omega : AngularVelocity α) : (s.timescale regime omega).IsProper := by
  simp only [CollisionSettings.timescale]
  split
  · cases regime <;> simp [collisionTimescale]
  · simp

theorem isProper_gasDragTimescale (s : GasDragSettings α) (density size : α) :
    (s.timescale density size).IsProper := by
  simp only [GasDragSettings.timescale, gasDragTimescale]
  split <;> simp

theorem isProper_escapeTimescale (s : HydroEscapeSettings α) (phase : PhaseTag)
    (temperature : Temperature α) (fraction : α) :
    (s.timescaleIn phase temperature fraction).IsProper := by
  cases phase with
  | solid => simp [HydroEscapeSettings.timescaleIn]
  | vapor =>
    simp only [HydroEscapeSettings.timescaleIn, HydroEscapeSettings.timescale]
    split <;> simp

/-- All competing timescales are proper. -/
structure TimescaleSet.IsProper (t : TimescaleSet α) : Prop where
  blow : t.blow.IsProper
  solid : t.solid.IsProper
  coll : t.coll.IsProper
  drag : t.drag.IsProper
  escape : t.escape.IsProper

theorem TimescaleSet.IsProper.isProper_fastest {t : TimescaleSet α} (h : t.IsProper) :
    t.fastest.IsProper :=
  (((h.blow.shorter h.solid).shorter h.coll).shorter h.drag).shorter h.escape

theorem TimescaleSet.IsProper.competing {t : TimescaleSet α} (h : t.IsProper) (mode : GateMode) :
    (mode.competing t).IsProper := by
  cases mode with
  | none => exact Timescale.isProper_infinite
  | sublimation => exact h.solid
  | collision => exact h.coll

/-! ## The entries of an evaluation -/

/-- How each entry follows from the committed state and the other entries. -/
structure Evaluation.IsOf (e : Evaluation α) (c : RunConfig α) (selector : PressureSelector α)
    (state : DiskState α) : Prop where
  surface : c.surfaceAt state.time = .ok e.surface
  grains : e.grains = c.grainsUnder e.surface
  phase : ∃ pressure, c.phase.evaluate selector ⟨c.sublimation.gasPressure⟩ e.grains
      c.temperature.history.source state.pathDepth = .ok (e.phase, pressure) ∧
    e.sublimation = c.sublimation.rates c.material.density pressure e.grains state.floor
  betas : e.betas = c.radiation.binBetas c.material.density state.bins.centres e.surface
  collisions : e.collisions = OpticalDepthRegime.classify (c.committedTau state)
  floor : e.floor = c.sizeFloorOf state.bins
  active : e.active = state.bins.activeSummary e.floor.size.metres
  activeSigma : e.activeSigma = e.active.mass / c.disk.area
  tau : e.tau = e.active.kappa * e.activeSigma
  shielding : e.shielding = c.shielding.apply
    { tau := e.tau, kappa := e.active.kappa, sigma := e.activeSigma
      vaporFraction := e.phase.vaporFraction }
  blowoutTimes : e.blowoutTimes =
    (c.radiation.binBlowout e.betas e.shielding.skinFluxFactor c.disk.omega).map (·.time)
  depthGated : e.depthGated = (c.radiation.depthGate.enabled &&
    decide (c.radiation.depthGate.maxDepth < e.shielding.pathDepth))
  eligibleFraction : e.eligibleFraction = if e.depthGated then 0
    else c.blowout.eligibleFraction e.phase.tag e.shielding.skin e.activeSigma
  eligible : e.eligible =
    (state.bins.activeMasses e.floor.size.metres).map (· * e.eligibleFraction)
  timescales : e.timescales = {
    blow := aggregateTimescale e.blowoutTimes e.eligible
    solid := e.sublimation.time
    coll := c.collisions.timescale e.collisions c.disk.omega
    drag := c.sinks.gasDrag.timescale c.material.density e.floor.size.metres
    escape := c.sinks.hydroEscape.timescaleIn e.phase.tag e.grains e.phase.vaporFraction }

/-- An evaluation that is made satisfies its equations. -/
theorem RunConfig.evaluate_eq_ok {c : RunConfig α} {selector : PressureSelector α}
    {state : DiskState α} {e : Evaluation α} (h : c.evaluate selector state = .ok e) :
    e.IsOf c selector state := by
  simp only [evaluate, bind_eq_ok_iff, pure, Except.pure, Except.ok.injEq] at h
  obtain ⟨surface, surfaceAt, ⟨phase, pressure⟩, phaseAt, rfl⟩ := h
  exact {
    surface := surfaceAt, grains := rfl, phase := ⟨pressure, phaseAt, rfl⟩, betas := rfl
    collisions := rfl, floor := rfl, active := rfl, activeSigma := rfl, tau := rfl
    shielding := rfl, blowoutTimes := rfl, depthGated := rfl, eligibleFraction := rfl
    eligible := rfl, timescales := rfl }

namespace Evaluation.IsOf
variable {e : Evaluation α} {c : RunConfig α} {selector : PressureSelector α} {state : DiskState α}

theorem isProper_sublimation (h : e.IsOf c selector state) : e.sublimation.time.IsProper := by
  obtain ⟨pressure, _, rates⟩ := h.phase
  rw [rates]
  simp only [SublimationSettings.rates]
  split
  · exact isProper_sublimationTimescale _ _
  · simp [SublimationRates.inactive]

theorem isProper_timescales (h : e.IsOf c selector state) : e.timescales.IsProper := by
  rw [h.timescales]
  exact {
    blow := isProper_aggregateTimescale _ _
    solid := h.isProper_sublimation
    coll := isProper_collisionTimescale _ _ _
    drag := isProper_gasDragTimescale _ _ _
    escape := isProper_escapeTimescale _ _ _ _ }

theorem isProper_blowoutTimes (h : e.IsOf c selector state) :
    ∀ t ∈ e.blowoutTimes, t.IsProper := by
  intro t ht
  rw [h.blowoutTimes] at ht
  simp only [RadiationSettings.binBlowout, List.map_map, List.mem_map] at ht
  obtain ⟨b, _, rfl⟩ := ht
  exact isProper_blowoutTimescale _ _ _ _

end Evaluation.IsOf
end DebrisDisk
