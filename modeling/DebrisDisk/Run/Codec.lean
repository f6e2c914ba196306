import DebrisDisk.Config.Codec
import DebrisDisk.Run.Integrator

/-!
# Documents of states and records

The written form of what a run holds and reports. A state can be read back, and so can every part of
a record; whole records and the summary of a run are only written. Quantities are written as their
number of base units, and every field has to be there unless it is optional.

## Main definitions

* `Timescale.codec`, `SizeBins.codec`, `MassLedger.codec`, `DiskState.codec` and the like.
* `StepRecord.document`, `RunSummary.document`.
-/

namespace DebrisDisk
open Scalar
variable {α : Type} [Scalar α]

/-- A quantity, as its number of base units. -/
def Quantity.codec {d : Dimension} : Codec α (Quantity d α) := Codec.real.map .mk (·.base)

/-! ## Timescales and regimes -/

/-- A timescale: its kind, and the seconds of a finite one. -/
def Timescale.codec : Codec α (Timescale α) := .paired "kind" "seconds" [
  .holding "finite" .real .finite Timescale.seconds?,
  .unit "infinite" .infinite (!·.isFinite)]

/-- The competing timescales. -/
def TimescaleSet.codec : Codec α (TimescaleSet α) := .record .inactive [
  .required "t_blow" Timescale.codec (·.blow) fun x t => { t with blow := x },
  .required "t_solid" Timescale.codec (·.solid) fun x t => { t with solid := x },
  .required "t_coll" Timescale.codec (·.coll) fun x t => { t with coll := x },
  .required "t_drag" Timescale.codec (·.drag) fun x t => { t with drag := x },
  .required "t_escape" Timescale.codec (·.escape) fun x t => { t with escape := x }]

/-- The fields of two numbers. -/
def pairFields (first second : String) : List (Field α (α × α)) := [
  .required first .real (·.1) fun x p => (x, p.2),
  .required second .real (·.2) fun x p => (p.1, x)]

/-- The collisional regime. -/
def OpticalDepthRegime.codec : Codec α (OpticalDepthRegime α) :=
  let tau : List (Field α α) := [.required "tau" .real id fun x _ => x]
  .tagged "regime" [
    .fielded "thin" 0 tau .thin (fun | .thin t => some t | .thick _ => none),
    .fielded "thick" 0 tau .thick (fun | .thick t => some t | .thin _ => none)]

/-- The regime of a grain under radiation. -/
def BetaRegime.codec : Codec α (BetaRegime α) := .tagged "regime" [
  .fielded "bound" (0, 0) (pairFields "beta" "threshold") (fun p => .bound p.1 p.2)
    (fun | .bound b t => some (b, t) | .unbound _ _ => none),
  .fielded "unbound" (0, 0) (pairFields "beta" "threshold") (fun p => .unbound p.1 p.2)
    (fun | .unbound b t => some (b, t) | .bound _ _ => none)]

/-- The regime of a long step. -/
def FastStepRegime.codec : Codec α (FastStepRegime α) := .tagged "regime" [
  .fielded "linear" (0, 0) (pairFields "ratio" "threshold") (fun p => .linear p.1 p.2)
    (fun | .linear r t => some (r, t) | .exponential _ _ => none),
  .fielded "exponential" (0, 0) (pairFields "ratio" "threshold") (fun p => .exponential p.1 p.2)
    (fun | .exponential r t => some (r, t) | .linear _ _ => none)]

/-- The regime and the blow-out time of a bin. -/
def BinBlowout.codec : Codec α (BinBlowout α) := .record ⟨.bound 0 0, .infinite⟩ [
  .required "regime" BetaRegime.codec (·.regime) fun x b => { b with regime := x },
  .required "t_blow" Timescale.codec (·.time) fun x b => { b with time := x }]

/-! ## The grid -/

/-- The annulus. -/
def DiskGeometry.codec : Codec α (DiskGeometry α) := .record ⟨0, 0⟩ [
  .required "radius" Quantity.codec (·.radius) fun x g => { g with radius := x },
  .required "width" Quantity.codec (·.width) fun x g => { g with width := x }]

/-- The grains; the lengths of the lists are not compared. -/
def SizeBins.codec : Codec α (SizeBins α) := .record ⟨[], [], [], 0⟩ [
  .required "edges" (.list .real) (·.edges) fun x b => { b with edges := x },
  .required "centres" (.list .real) (·.centres) fun x b => { b with centres := x },
  .required "mass" (.list .real) (·.masses) fun x b => { b with masses := x },
  .required "material_density" .real (·.density) fun x b => { b with density := x }]

/-- The active grains. -/
def ActiveSummary.codec : Codec α (ActiveSummary α) := .record ⟨0, 0⟩ [
  .required "mass_kg" .real (·.mass) fun x s => { s with mass := x },
  .required "kappa_m2_kg" .real (·.kappa) fun x s => { s with kappa := x }]

/-- The source of the size floor. -/
def FloorSource.codec : Codec α FloorSource :=
  .named [("configured", .configured), ("surface_energy", .surfaceEnergy)]

/-- The size floor. -/
def SizeFloor.codec : Codec α (SizeFloor α) := .record ⟨0, .configured, 0⟩ [
  .required "size" Quantity.codec (·.size) fun x f => { f with size := x },
  .required "source" FloorSource.codec (·.source) fun x f => { f with source := x },
  .required "surface_energy_size" Quantity.codec (·.surfaceEnergySize)
    fun x f => { f with surfaceEnergySize := x }]

/-- The mass moved by grinding. -/
def GrindOutcome.codec : Codec α (GrindOutcome α) := .record ⟨0, 0⟩ [
  .required "destroyed" .real (·.destroyed) fun x o => { o with destroyed := x },
  .required "lost" .real (·.lost) fun x o => { o with lost := x }]

/-! ## Radiation and vapor -/

/-- The skin, as its surface density. Without a bound there is no number to write; what is written
in its place is not read back. -/
def SkinColumn.codec : Codec α (SkinColumn α) where
  encode
    | .unbounded => .null
    | .column sigma => .real sigma
  decode depth d := .column <$> Codec.real.decode depth d
  abridges d d' := d' = d

/-- The flux that is left. -/
def ShieldingOutcome.codec : Codec α (ShieldingOutcome α) :=
  .record ⟨0, 0, 0, 0, 0, 0, .unbounded⟩ [
    .required "f_los" .real (·.pathFactor) fun x o => { o with pathFactor := x },
    .required "tau_los" .real (·.pathDepth) fun x o => { o with pathDepth := x },
    .required "tau_vapor" .real (·.vaporDepth) fun x o => { o with vaporDepth := x },
    .required "flux_factor" .real (·.fluxFactor) fun x o => { o with fluxFactor := x },
    .required "skin_flux_factor" .real (·.skinFluxFactor)
      fun x o => { o with skinFluxFactor := x },
    .required "kappa_eff" .real (·.pathOpacity) fun x o => { o with pathOpacity := x },
    .required "sigma_tau1" SkinColumn.codec (·.skin) fun x o => { o with skin := x }]

/-- The phase. -/
def PhaseTag.codec : Codec α PhaseTag := .named [("solid", .solid), ("vapor", .vapor)]

/-- The vapor pressure law. -/
def PressureModel.codec : Codec α PressureModel := .named [
  ("tabulated", .tabulated),
  ("local_fit", .localFit),
  ("clausius_clapeyron", .clausiusClapeyron)]

/-- The source of a temperature. -/
def TemperatureSource.codec : Codec α TemperatureSource :=
  .named [("table", .table), ("analytic", .analytic)]

/-- The phase of the disk. -/
def PhaseState.codec : Codec α (PhaseState α) :=
  .record ⟨.solid, .tabulated, 0, .table, 0, 0⟩ [
    .required "tag" PhaseTag.codec (·.tag) fun x s => { s with tag := x },
    .required "psat_model" PressureModel.codec (·.model) fun x s => { s with model := x },
    .required "vapor_fraction" .real (·.vaporFraction) fun x s => { s with vaporFraction := x },
    .required "temperature_source" TemperatureSource.codec (·.source)
      fun x s => { s with source := x },
    .required "grain_temperature" Quantity.codec (·.grainTemperature)
      fun x s => { s with grainTemperature := x },
    .required "psat" Quantity.codec (·.pressure) fun x s => { s with pressure := x }]

/-- The vapor pressure. -/
def PressureEvaluation.codec : Codec α (PressureEvaluation α) := .record ⟨.tabulated, 0, 0⟩ [
  .required "model" PressureModel.codec (·.model) fun x e => { e with model := x },
  .required "log10_p_pa" .real (·.log10Pressure) fun x e => { e with log10Pressure := x },
  .required "pressure" Quantity.codec (·.pressure) fun x e => { e with pressure := x }]

/-- The rates of sublimation. -/
def SublimationRates.codec : Codec α (SublimationRates α) := .record .inactive [
  .required "mass_flux" .real (·.flux) fun x r => { r with flux := x },
  .required "shrink_rate" .real (·.shrinkRate) fun x r => { r with shrinkRate := x },
  .required "t_solid" Timescale.codec (·.time) fun x r => { r with time := x }]

/-! ## Blow-out and accounts -/

/-- The decision of the gate. -/
def GateDecision.codec : Codec α (GateDecision α) :=
  .record ⟨.none, 0, 0, 0, none, false, false⟩ [
    .required "gate_mode" GateMode.codec (·.mode) fun x d => { d with mode := x },
    .required "f_gate" .real (·.gate) fun x d => { d with gate := x },
    .required "nominal_fraction" .real (·.nominalFraction)
      fun x d => { d with nominalFraction := x },
    .required "f_loss" .real (·.loss) fun x d => { d with loss := x },
    .emptyIfUnnamed "fast_step" FastStepRegime.codec (·.fastStep)
      fun x d => { d with fastStep := x },
    .required "correction_engaged" .truth (·.engaged) fun x d => { d with engaged := x },
    .required "tau_gated" .truth (·.depthGated) fun x d => { d with depthGated := x }]

/-- The mass that each process moved. -/
def MassFlows.codec : Codec α (MassFlows α) := .record .zero [
  .required "supply" .real (·.supply) fun x f => { f with supply := x },
  .required "blowout" .real (·.blowout) fun x f => { f with blowout := x },
  .required "sublimation" .real (·.sublimation) fun x f => { f with sublimation := x },
  .required "collisions" .real (·.collisions) fun x f => { f with collisions := x },
  .required "floor" .real (·.floor) fun x f => { f with floor := x },
  .required "gas_drag" .real (·.gasDrag) fun x f => { f with gasDrag := x },
  .required "hydro_escape" .real (·.hydroEscape) fun x f => { f with hydroEscape := x }]

/-- The accounts of a run. -/
def MassLedger.codec : Codec α (MassLedger α) := .record ⟨0, .zero, 0, 0, 0⟩ [
  .required "initial_kg" .real (·.initial) fun x l => { l with initial := x },
  .required "totals" MassFlows.codec (·.totals) fun x l => { l with totals := x },
  .required "current_kg" .real (·.current) fun x l => { l with current := x },
  .required "tolerance_percent" .real (·.tolerance) fun x l => { l with tolerance := x },
  .required "max_error_percent" .real (·.maxError) fun x l => { l with maxError := x }]

/-! ## States, records and summaries -/

/-- The disk between two steps. -/
def DiskState.codec : Codec α (DiskState α) :=
  .record ⟨0, ⟨[], [], [], 0⟩, 0, 0, 0, 0, 0, none, none, .zero⟩ [
    .required "time" Quantity.codec (·.time) fun x s => { s with time := x },
    .required "bins" SizeBins.codec (·.bins) fun x s => { s with bins := x },
    .required "t_mars" Quantity.codec (·.surface) fun x s => { s with surface := x },
    .required "t_grain" Quantity.codec (·.grains) fun x s => { s with grains := x },
    .required "tau_vert" .real (·.tau) fun x s => { s with tau := x },
    .required "tau_los" .real (·.pathDepth) fun x s => { s with pathDepth := x },
    .required "floor" Quantity.codec (·.floor) fun x s => { s with floor := x },
    .emptyIfUnnamed "psat_model" PressureModel.codec (·.model) fun x s => { s with model := x },
    .emptyIfUnnamed "phase" PhaseTag.codec (·.phase) fun x s => { s with phase := x },
    .required "totals" MassFlows.codec (·.totals) fun x s => { s with totals := x }]

/-- The document of the disk in a record. -/
def DiskSummary.document (s : DiskSummary α) : Document α := .ofEntries [
  ("mass_kg", .real s.mass),
  ("sigma_kg_m2", .real s.sigma),
  ("sigma_active_kg_m2", .real s.activeSigma),
  ("tau_vert", .real s.tau),
  ("tau_los", .real s.pathDepth),
  ("flux_factor", .real s.fluxFactor),
  ("skin_flux_factor", .real s.skinFluxFactor),
  ("sigma_tau1_kg_m2", SkinColumn.codec.encode s.skin),
  ("s_floor_m", .real s.floor),
  ("floor_source", FloorSource.codec.encode s.floorSource),
  ("s_blow_m", .real s.blowoutSize),
  ("beta_at_floor", .real s.betaAtFloor),
  ("t_mars_k", .real s.surface),
  ("t_grain_k", .real s.grains)]

/-- The document of a record. -/
def StepRecord.document (r : StepRecord α) : Document α := .ofEntries [
  ("step", .whole r.step),
  ("time_s", .real r.time),
  ("dt_s", .real r.dt),
  ("phase", PhaseState.codec.encode r.phase),
  ("timescales", TimescaleSet.codec.encode r.timescales),
  ("collision_regime", OpticalDepthRegime.codec.encode r.collisions),
  ("gate", GateDecision.codec.encode r.gate),
  ("ledger_error_percent", .real r.ledgerError),
  ("disk", r.disk.document),
  ("removed", MassFlows.codec.encode r.removed)]

/-- The reason for the end of a run. -/
def TerminationReason.codec : Codec α TerminationReason := .named [
  ("time_horizon", .timeHorizon),
  ("step_limit", .stepLimit),
  ("mass_depleted", .massDepleted)]

/-- The document of the end of a run. -/
def RunSummary.document (s : RunSummary α) : Document α := .ofEntries [
  ("reason", TerminationReason.codec.encode s.reason),
  ("steps", .whole s.steps),
  ("final_time", Quantity.codec.encode s.finalTime),
  ("final_mass", Quantity.codec.encode s.finalMass),
  ("ledger", MassLedger.codec.encode s.ledger),
  ("max_error_percent", .real s.maxError)]

end DebrisDisk
