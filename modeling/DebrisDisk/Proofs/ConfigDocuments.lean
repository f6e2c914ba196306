import DebrisDisk.Config.Codec
import DebrisDisk.Proofs.Documents
import DebrisDisk.Proofs.Exact.Reals

/-!
# Configuration documents that are read back

Every section of a configuration is written faithfully, and so is the whole of it: a configuration
is read back from its document, whichever of the entries that hold their default are left out.
Numbers stand in documents as values, so nothing is asked of them; those without a decimal form are
lost only when the document becomes a text.

The number in a bound `height + n` is how deep the documents of the section are nested.

## Main results

* `RunConfig.isFaithful_codec` and its like for the sections: what is written is faithful.
* `RunConfig.codec_round_trip`: a configuration is read back.
-/

namespace DebrisDisk
open Codec
variable {α : Type} [Scalar α] {height : Nat}

/-! ## Sections with numbers alone -/

@[simp] theorem GeometrySettings.isFaithful_codec :
    (codec : Codec α (GeometrySettings α)).IsFaithful (height + 1) :=
  isFaithful_record { distinct := by simp, faithful := by simp, cover := by simp }

@[simp] theorem MaterialSettings.isFaithful_codec :
    (codec : Codec α (MaterialSettings α)).IsFaithful (height + 1) :=
  isFaithful_record { distinct := by simp, faithful := by simp, cover := by simp }

@[simp] theorem SizeGridSettings.isFaithful_codec :
    (codec : Codec α (SizeGridSettings α)).IsFaithful (height + 1) :=
  isFaithful_record { distinct := by simp, faithful := by simp, cover := by simp }

@[simp] theorem InitialSettings.isFaithful_codec :
    (codec : Codec α (InitialSettings α)).IsFaithful (height + 1) :=
  isFaithful_record { distinct := by simp, faithful := by simp, cover := by simp }

@[simp] theorem PhaseSettings.isFaithful_codec :
    (codec : Codec α (PhaseSettings α)).IsFaithful (height + 1) :=
  isFaithful_record { distinct := by simp, faithful := by simp, cover := by simp }

@[simp] theorem CollisionSettings.isFaithful_codec :
    (codec : Codec α (CollisionSettings α)).IsFaithful (height + 1) :=
  isFaithful_record { distinct := by simp, faithful := by simp, cover := by simp }

@[simp] theorem SurfaceEnergySettings.isFaithful_codec :
    (codec : Codec α (SurfaceEnergySettings α)).IsFaithful (height + 1) :=
  isFaithful_record { distinct := by simp, faithful := by simp, cover := by simp }

@[simp] theorem SizeFloorSettings.isFaithful_codec :
    (codec : Codec α (SizeFloorSettings α)).IsFaithful (height + 2) :=
  isFaithful_record { distinct := by simp, faithful := by simp, cover := by simp }

@[simp] theorem GasDragSettings.isFaithful_codec :
    (codec : Codec α (GasDragSettings α)).IsFaithful (height + 1) :=
  isFaithful_record { distinct := by simp, faithful := by simp, cover := by simp }

@[simp] theorem HydroEscapeSettings.isFaithful_codec :
    (codec : Codec α (HydroEscapeSettings α)).IsFaithful (height + 1) :=
  isFaithful_record { distinct := by simp, faithful := by simp, cover := by simp }

@[simp] theorem SinkSettings.isFaithful_codec :
    (codec : Codec α (SinkSettings α)).IsFaithful (height + 2) :=
  isFaithful_record { distinct := by simp, faithful := by simp, cover := by simp }

@[simp] theorem BudgetSettings.isFaithful_codec :
    (codec : Codec α (BudgetSettings α)).IsFaithful (height + 1) :=
  isFaithful_record { distinct := by simp, faithful := by simp, cover := by simp }

/-! ## Surface temperature -/

@[simp] theorem TemperatureRow.isFaithful_codec :
    (codec : Codec α (TemperatureRow α)).IsFaithful (height + 1) :=
  isFaithful_record { distinct := by simp, faithful := by simp, cover := by simp }

omit [Scalar α] in
@[simp] theorem Extrapolation.isFaithful_codec :
    (codec : Codec α Extrapolation).IsFaithful (height + 1) :=
  isFaithful_namedInTagged (by simp) (by rintro (_ | _) <;> simp)

@[simp] theorem SurfaceHistory.isFaithful_codec :
    (codec : Codec α (SurfaceHistory α)).IsFaithful (height + 3) :=
  isFaithful_tagged {
    distinct := by simp [Variant.fielded]
    faithful := by
      simp only [List.forall_mem_cons]
      refine ⟨?constant, ?table, ?slab, ?linear, by simp⟩
      all_goals
        apply Variant.isFaithful_fielded
        case made => constructor <;> simp
        case untagged => simp
        case back => rintro (_ | _ | _ | _) <;> simp
    total := by rintro (_ | _ | _ | _) <;> simp [Variant.fielded] }

@[simp] theorem TemperatureSettings.isFaithful_codec :
    (codec : Codec α (TemperatureSettings α)).IsFaithful (height + 4) :=
  isFaithful_record { distinct := by simp, faithful := by simp, cover := by simp }

/-! ## Radiation -/

@[simp] theorem BlowoutEfficiency.isFaithful_codec :
    (codec : Codec α (BlowoutEfficiency α)).IsFaithful (height + 1) :=
  isFaithful_choice {
    distinct := by simp [Alternative.holding, Alternative.unit]
    faithful := by
      simp only [List.forall_mem_cons]
      refine ⟨?fixed, ?automatic, by simp⟩
      case fixed =>
        exact Alternative.isFaithful_holding isFaithful_real (by rintro (_ | _) <;> simp)
      case automatic => exact Alternative.isFaithful_unit (by rintro (_ | _) <;> simp) _
    total := by rintro (_ | _) <;> simp [Alternative.holding, Alternative.unit] }

@[simp] theorem DepthGateSettings.isFaithful_codec :
    (codec : Codec α (DepthGateSettings α)).IsFaithful (height + 1) :=
  isFaithful_record { distinct := by simp, faithful := by simp, cover := by simp }

@[simp] theorem RadiationSettings.isFaithful_codec :
    (codec : Codec α (RadiationSettings α)).IsFaithful (height + 2) :=
  isFaithful_record { distinct := by simp, faithful := by simp, cover := by simp }

@[simp] theorem LineOfSight.isFaithful_codec :
    (codec : Codec α (LineOfSight α)).IsFaithful (height + 1) :=
  isFaithful_tagged {
    distinct := by simp [Variant.bare, Variant.fielded]
    faithful := by
      simp only [List.forall_mem_cons]
      refine ⟨?vertical, ?slanted, by simp⟩
      case vertical => exact Variant.isFaithful_bare (by rintro (_ | _) <;> simp) _
      case slanted =>
        apply Variant.isFaithful_fielded
        case made => constructor <;> simp
        case untagged => simp
        case back => rintro (_ | _) <;> simp
    total := by rintro (_ | _) <;> simp [Variant.bare, Variant.fielded] }

omit [Scalar α] in
@[simp] theorem ShieldingOrder.isFaithful_codec :
    (codec : Codec α ShieldingOrder).IsFaithful (height + 1) :=
  isFaithful_named (by simp) (by rintro (_ | _) <;> simp)

@[simp] theorem ShieldingSettings.isFaithful_codec :
    (codec : Codec α (ShieldingSettings α)).IsFaithful (height + 2) :=
  isFaithful_record { distinct := by simp, faithful := by simp, cover := by simp }

/-! ## Vapor -/

omit [Scalar α] in
@[simp] theorem RequestedModel.isFaithful_codec :
    (codec : Codec α RequestedModel).IsFaithful (height + 1) :=
  isFaithful_named (by simp) (by rintro (⟨_ | _ | _⟩ | _) <;> simp)

@[simp] theorem ClausiusCoefficients.isFaithful_codec :
    (codec : Codec α (ClausiusCoefficients α)).IsFaithful (height + 1) :=
  isFaithful_record { distinct := by simp, faithful := by simp, cover := by simp }

@[simp] theorem LiquidBranch.isFaithful_codec :
    (codec : Codec α (LiquidBranch α)).IsFaithful (height + 1) :=
  isFaithful_record { distinct := by simp, faithful := by simp, cover := by simp }

@[simp] theorem LiquidBranch.isSubstantial_codec :
    (codec : Codec α (LiquidBranch α)).IsSubstantial :=
  isSubstantial_record _ _

@[simp] theorem PressureRow.isFaithful_codec :
    (codec : Codec α (PressureRow α)).IsFaithful (height + 1) :=
  isFaithful_record { distinct := by simp, faithful := by simp, cover := by simp }

@[simp] theorem SublimationSettings.isFaithful_codec :
    (codec : Codec α (SublimationSettings α)).IsFaithful (height + 3) :=
  isFaithful_record { distinct := by simp, faithful := by simp, cover := by simp }

/-! ## Blow-out -/

omit [Scalar α] in
@[simp] theorem GateMode.isFaithful_codec : (codec : Codec α GateMode).IsFaithful (height + 1) :=
  isFaithful_named (by simp) (by rintro (_ | _ | _) <;> simp)

omit [Scalar α] in
@[simp] theorem TargetPhase.isFaithful_codec :
    (codec : Codec α TargetPhase).IsFaithful (height + 1) :=
  isFaithful_named (by simp) (by rintro (_ | _) <;> simp)

omit [Scalar α] in
@[simp] theorem BlowoutLayer.isFaithful_codec :
    (codec : Codec α BlowoutLayer).IsFaithful (height + 1) :=
  isFaithful_named (by simp) (by rintro (_ | _) <;> simp)

@[simp] theorem FastStepSettings.isFaithful_codec :
    (codec : Codec α (FastStepSettings α)).IsFaithful (height + 1) :=
  isFaithful_record { distinct := by simp, faithful := by simp, cover := by simp }

@[simp] theorem BlowoutSettings.isFaithful_codec :
    (codec : Codec α (BlowoutSettings α)).IsFaithful (height + 2) :=
  isFaithful_record { distinct := by simp, faithful := by simp, cover := by simp }

/-! ## Supply -/

@[simp] theorem SupplySegment.isFaithful_codec :
    (codec : Codec α (SupplySegment α)).IsFaithful (height + 1) :=
  isFaithful_record { distinct := by simp, faithful := by simp, cover := by simp }

@[simp] theorem SupplyRow.isFaithful_codec :
    (codec : Codec α (SupplyRow α)).IsFaithful (height + 1) :=
  isFaithful_record { distinct := by simp, faithful := by simp, cover := by simp }

@[simp] theorem SupplyHistory.isFaithful_codec :
    (codec : Codec α (SupplyHistory α)).IsFaithful (height + 3) :=
  isFaithful_tagged {
    distinct := by simp [Variant.bare, Variant.fielded]
    faithful := by
      simp only [List.forall_mem_cons]
      refine ⟨?none, ?constant, ?powerLaw, ?piecewise, ?table, by simp⟩
      case none => exact Variant.isFaithful_bare (by rintro (_ | _ | _ | _ | _) <;> simp) _
      all_goals
        apply Variant.isFaithful_fielded
        case made => constructor <;> simp
        case untagged => simp
        case back => rintro (_ | _ | _ | _ | _) <;> simp
    total := by rintro (_ | _ | _ | _ | _) <;> simp [Variant.bare, Variant.fielded] }

@[simp] theorem SupplySettings.isFaithful_codec :
    (codec : Codec α (SupplySettings α)).IsFaithful (height + 4) :=
  isFaithful_record { distinct := by simp, faithful := by simp, cover := by simp }

/-! ## Steps -/

@[simp] theorem StepSize.isFaithful_codec :
    (codec : Codec α (StepSize α)).IsFaithful (height + 1) :=
  isFaithful_tagged {
    distinct := by simp [Variant.bare, Variant.fielded]
    faithful := by
      simp only [List.forall_mem_cons]
      refine ⟨?fixed, ?automatic, by simp⟩
      case fixed =>
        apply Variant.isFaithful_fielded
        case made => constructor <;> simp
        case untagged => simp
        case back => rintro (_ | _) <;> simp
      case automatic => exact Variant.isFaithful_bare (by rintro (_ | _) <;> simp) _
    total := by rintro (_ | _) <;> simp [Variant.bare, Variant.fielded] }

@[simp] theorem NumericsSettings.isFaithful_codec :
    (codec : Codec α (NumericsSettings α)).IsFaithful (height + 2) :=
  isFaithful_record { distinct := by simp, faithful := by simp, cover := by simp }

/-! ## The whole configuration -/

@[simp] theorem RunConfig.isFaithful_codec :
    (codec : Codec α (RunConfig α)).IsFaithful (height + 5) :=
  isFaithful_record { distinct := by simp, faithful := by simp, cover := by simp }

namespace RunConfig

/-- A configuration is read back from its document, and also from that document with any entries
left out, at any depth, that need not be there and hold their default. -/
theorem codec_round_trip (c : RunConfig α) :
    codec.decode 0 (codec.encode c) = .ok c ∧
      ∀ d, codec.abridges (codec.encode c) d → codec.decode 0 d = .ok c := by
  have faithful : (codec : Codec α (RunConfig α)).IsFaithful (0 + 5) := isFaithful_codec
  have reads (d : Document α) (abridged : codec.abridges (codec.encode c) d) :
      codec.decode 0 d = .ok c := (faithful.reads abridged (by decide)).1
  exact ⟨reads _ (faithful.whole c), reads⟩

/-- A run fed by a power law of time. -/
noncomputable def fed : RunConfig ℝ :=
  { RunConfig.default with
    supply := { SupplySettings.default with history := .powerLaw ⟨1, 0, 1, 1⟩ }
    seed := 7 }

/-- The document of this run without what is as in the baseline run, and without the onset and the
softening of the law. -/
noncomputable def fedDocument : Document ℝ := .ofEntries [
  ("supply", .ofEntries [
    ("mode", .ofEntries [
      ("mode", .string "power_law"), ("amplitude_kg_s", .real 1), ("index", .real 1)])]),
  ("seed", .whole 7)]

theorem abridges_fedDocument : codec.abridges (codec.encode fed) fedDocument := by
  have law : SupplyHistory.codec.abridges
      (SupplyHistory.codec.encode (.powerLaw ⟨1, 0, 1, 1⟩ : SupplyHistory ℝ))
      (.ofEntries [
        ("mode", .string "power_law"), ("amplitude_kg_s", .real 1), ("index", .real 1)]) := by
    refine ⟨_, List.mem_of_find?_eq_some (p := (·.name == "power_law")) rfl, _, _, rfl, rfl, ?_⟩
    exact .kept rfl rfl <| .leftOut rfl (by decide) rfl <|
      .kept rfl rfl <| .leftOut rfl (by decide) rfl .nil
  have supply : SupplySettings.codec.abridges (SupplySettings.codec.encode fed.supply)
      (.ofEntries [("mode", .ofEntries [
        ("mode", .string "power_law"), ("amplitude_kg_s", .real 1), ("index", .real 1)])]) := by
    refine ⟨_, _, rfl, rfl, .kept rfl law ?_⟩
    iterate 3 refine .leftOut rfl (by decide) rfl ?_
    exact .nil
  refine ⟨_, _, rfl, rfl, ?_⟩
  iterate 13 refine .leftOut rfl (by decide) rfl ?_
  refine .kept rfl supply ?_
  iterate 2 refine .leftOut rfl (by decide) rfl ?_
  exact .kept rfl rfl .nil

theorem codec_round_trip_fed : codec.decode 0 fedDocument = .ok fed :=
  (codec_round_trip fed).2 fedDocument abridges_fedDocument

end RunConfig
end DebrisDisk
