import Mathlib
import DebrisDisk.Proofs.Construction

/-!
# The ladder of vapor pressure laws

An automatic choice tries the interpolated table, then the local fit, then the Clausius-Clapeyron
law. Each of the three has a domain that the entries of the configuration determine: the table and
the fit need rows, and hold from the first row to the last, the fit with its window on either side.
The last law holds everywhere, so that the choice never fails.

A law that was asked for by name is made of the same entries, and it fails outside its domain and
nowhere else. Where the automatic choice uses a law, it is accepted by name and gives the same
pressure. None of this computes with the numbers, so it holds for every carrier.

## Main definitions

* `SublimationSettings.lawOf`, `SublimationSettings.Covers`: the laws and their domains.
* `SublimationSettings.Answers`: how accepted settings answer at a temperature.

## Main results

* `SublimationSettings.law_fixed`, `SublimationSettings.law_automatic`: which law is in use.
* `SublimationSettings.answers_of_selector`: accepted settings, at every temperature.
-/

namespace DebrisDisk
open Scalar
variable {α : Type} [Scalar α]

/-- The vapor pressure by one law. -/
def PressureLaw.evaluation (l : PressureLaw α) (t : α) : PressureEvaluation α :=
  { model := l.model, log10Pressure := l.log10Pressure t
    pressure := ⟨pow 10.0 (l.log10Pressure t)⟩ }

namespace PressureSelector
variable {p : PressureSelector α} {temperature : Temperature α}

theorem select_of_law {l : PressureLaw α} (h : p.law temperature.kelvin = .ok l) :
    p.select temperature = .ok (l.evaluation temperature.kelvin) := by
  rw [select, h]
  rfl

theorem select_eq_error_iff {e : StepError α} :
    p.select temperature = .error e ↔ p.law temperature.kelvin = .error e := by
  simp [select, pure, Except.pure]

end PressureSelector

namespace SublimationSettings

/-! ## Laws by name -/

omit [Scalar α] in
/-- The law of a name, made of the entries. -/
def lawOf (s : SublimationSettings α) : PressureModel → PressureLaw α
  | .tabulated => .tabulated s.table
  | .localFit => .localFit { rows := s.table, window := s.window, minPoints := s.minPoints }
  | .clausiusClapeyron => .clausius s.baseline

omit [Scalar α] in
@[simp] theorem model_lawOf (s : SublimationSettings α) (m : PressureModel) :
    (s.lawOf m).model = m := by
  cases m <;> rfl

omit [Scalar α] in
@[simp] theorem lawOf_clausiusClapeyron (s : SublimationSettings α) :
    s.lawOf .clausiusClapeyron = .clausius s.baseline := rfl

/-- The law of a name can be made of the entries, and holds at a temperature. -/
def Covers (s : SublimationSettings α) (t : α) : PressureModel → Prop
  | .tabulated => ∃ first last, s.table.head? = some first ∧ s.table.getLast? = some last ∧
      first.temperature ≤ t ∧ t ≤ last.temperature
  | .localFit => s.minPoints ≤ s.table.length ∧
      ∃ first last, s.table.head? = some first ∧ s.table.getLast? = some last ∧
        first.temperature - s.window ≤ t ∧ t ≤ last.temperature + s.window
  | .clausiusClapeyron => True

variable {s : SublimationSettings α}

theorem isValid_tabulated (rows : s.table ≠ []) {t : α} :
    (s.lawOf .tabulated).isValid t = true ↔ s.Covers t .tabulated := by
  have head := List.head?_eq_some_head rows
  have tail := List.getLast?_eq_some_getLast rows
  simp [lawOf, PressureLaw.isValid, Covers, PressureRow.lowest, PressureRow.highest, head, tail]

theorem isValid_localFit (rows : s.table ≠ []) (enough : s.minPoints ≤ s.table.length) {t : α} :
    (s.lawOf .localFit).isValid t = true ↔ s.Covers t .localFit := by
  have head := List.head?_eq_some_head rows
  have tail := List.getLast?_eq_some_getLast rows
  simp [lawOf, PressureLaw.isValid, Covers, PressureRow.lowest, PressureRow.highest, head, tail,
    enough]

/-! ## The law in use -/

theorem tabulatedLaw_eq_ok {l : PressureLaw α} (h : s.tabulatedLaw = .ok l) :
    l = s.lawOf .tabulated := by
  simp only [tabulatedLaw, bind_eq_ok_iff, pure, Except.pure, Except.ok.injEq] at h
  obtain ⟨_, _, rfl⟩ := h
  rfl

theorem fitLaw_eq_ok {l : PressureLaw α} (h : s.fitLaw = .ok l) : l = s.lawOf .localFit := by
  simp only [fitLaw, LocalFit.of, map_eq_ok_iff, bind_eq_ok_iff, pure, Except.pure,
    Except.ok.injEq] at h
  obtain ⟨_, ⟨_, _, _, _, _, _, _, _, rfl⟩, rfl⟩ := h
  rfl

/-- A law that is asked for by name is the only one. -/
theorem selector_fixed {m : PressureModel} (asked : s.model = .fixed m) {p : PressureSelector α}
    (accepted : s.selector = .ok p) : p = .fixed (s.lawOf m) := by
  cases m with
  | clausiusClapeyron =>
    simp only [selector, asked, Except.ok.injEq] at accepted
    exact accepted.symm
  | tabulated =>
    simp only [selector, asked, bind_eq_ok_iff, pure, Except.pure, Except.ok.injEq] at accepted
    obtain ⟨_, _, l, made, rfl⟩ := accepted
    rw [tabulatedLaw_eq_ok made]
  | localFit =>
    simp only [selector, asked, map_eq_ok_iff] at accepted
    obtain ⟨l, made, rfl⟩ := accepted
    rw [fitLaw_eq_ok made]

/-- It is in use in its domain, and there is no other. -/
theorem law_fixed {m : PressureModel} (asked : s.model = .fixed m) {p : PressureSelector α}
    (accepted : s.selector = .ok p) (t : α) :
    (s.Covers t m ∧ p.law t = .ok (s.lawOf m)) ∨
      (¬ s.Covers t m ∧ p.law t = .error (.modelDomainExhausted m t)) := by
  have usable := selector_isOk_iff.mp ⟨p, accepted⟩
  have domain : (s.lawOf m).isValid t = true ↔ s.Covers t m := by
    simp only [IsUsable, asked] at usable
    cases m with
    | clausiusClapeyron => simp [lawOf, PressureLaw.isValid, Covers]
    | tabulated =>
      exact isValid_tabulated (List.ne_nil_of_length_pos (by have := usable.several; omega))
    | localFit =>
      exact isValid_localFit (List.ne_nil_of_length_pos (by have := usable.table.several; omega))
        usable.enough
  rw [selector_fixed asked accepted, PressureSelector.law, model_lawOf, ← domain]
  by_cases valid : (s.lawOf m).isValid t = true
  · exact .inl ⟨valid, if_pos valid⟩
  · exact .inr ⟨valid, if_neg valid⟩

/-- The first law of the ladder that holds at a temperature. -/
inductive IsFirst (s : SublimationSettings α) (t : α) : PressureModel → Prop where
  | tabulated (covered : s.Covers t .tabulated) : IsFirst s t .tabulated
  | localFit (outside : ¬ s.Covers t .tabulated) (covered : s.Covers t .localFit) :
      IsFirst s t .localFit
  | clausiusClapeyron (outside : ¬ s.Covers t .tabulated) (beyond : ¬ s.Covers t .localFit) :
      IsFirst s t .clausiusClapeyron

/-- What an automatic choice tries before the last law. -/
theorem selector_automatic (asked : s.model = .automatic) {p : PressureSelector α}
    (accepted : s.selector = .ok p) :
    p = .ladder (if s.table = [] then []
      else if s.minPoints ≤ s.table.length then [s.lawOf .tabulated, s.lawOf .localFit]
      else [s.lawOf .tabulated]) s.baseline := by
  simp only [selector, asked, bind_eq_ok_iff, pure, Except.pure, Except.ok.injEq] at accepted
  obtain ⟨candidates, made, rfl⟩ := accepted
  congr 1
  simp only [SublimationSettings.candidates] at made
  by_cases none : s.table = []
  · simp only [none, if_true, pure, Except.pure, Except.ok.injEq] at made ⊢
    exact made.symm
  · simp only [none, if_false, bind_eq_ok_iff] at made ⊢
    obtain ⟨tabulated, table, rest⟩ := made
    rw [tabulatedLaw_eq_ok table] at rest
    by_cases enough : s.minPoints ≤ s.table.length
    · simp only [enough, if_true, bind_eq_ok_iff, pure, Except.pure, Except.ok.injEq] at rest ⊢
      obtain ⟨fit, fitted, rfl⟩ := rest
      rw [fitLaw_eq_ok fitted]
    · simp only [enough, if_false, pure, Except.pure, Except.ok.injEq] at rest ⊢
      exact rest.symm

/-- An automatic choice uses the first law that holds. -/
theorem law_automatic (asked : s.model = .automatic) {p : PressureSelector α}
    (accepted : s.selector = .ok p) (t : α) :
    ∃ m, s.IsFirst t m ∧ p.law t = .ok (s.lawOf m) := by
  rw [selector_automatic asked accepted]
  by_cases none : s.table = []
  · have outside : ¬ s.Covers t .tabulated := by simp [Covers, none]
    have beyond : ¬ s.Covers t .localFit := by simp [Covers, none]
    exact ⟨_, .clausiusClapeyron outside beyond, by simp [PressureSelector.law, none]⟩
  · have inTable := isValid_tabulated none (t := t)
    by_cases enough : s.minPoints ≤ s.table.length
    · have inFit := isValid_localFit none enough (t := t)
      by_cases table : s.Covers t .tabulated
      · exact ⟨_, .tabulated table, by
          simp [PressureSelector.law, none, enough, inTable.mpr table]⟩
      · have notTable := mt inTable.mp table
        by_cases fit : s.Covers t .localFit
        · exact ⟨_, .localFit table fit, by
            simp [PressureSelector.law, none, enough, notTable, inFit.mpr fit]⟩
        · have notFit := mt inFit.mp fit
          exact ⟨_, .clausiusClapeyron table fit, by
            simp [PressureSelector.law, none, enough, notTable, notFit]⟩
    · have beyond : ¬ s.Covers t .localFit := fun covered => enough covered.1
      by_cases table : s.Covers t .tabulated
      · exact ⟨_, .tabulated table, by
          simp [PressureSelector.law, none, enough, inTable.mpr table]⟩
      · have notTable := mt inTable.mp table
        exact ⟨_, .clausiusClapeyron table beyond, by
          simp [PressureSelector.law, none, enough, notTable]⟩

theorem IsFirst.model_iff {t : α} {m : PressureModel} (first : s.IsFirst t m) :
    (m = .tabulated ↔ s.Covers t .tabulated) ∧
    (m = .localFit ↔ ¬ s.Covers t .tabulated ∧ s.Covers t .localFit) ∧
    (m = .clausiusClapeyron ↔ ¬ s.Covers t .tabulated ∧ ¬ s.Covers t .localFit) := by
  cases first with
  | tabulated covered => simp [covered]
  | localFit outside covered => simp [outside, covered]
  | clausiusClapeyron outside beyond => simp [outside, beyond]

theorem IsFirst.covers {t : α} {m : PressureModel} (first : s.IsFirst t m) : s.Covers t m := by
  cases first with
  | tabulated covered => exact covered
  | localFit _ covered => exact covered
  | clausiusClapeyron _ _ => trivial

/-! ## Both kinds of choice -/

/-- The same entries with a law asked for by name. -/
def asking (s : SublimationSettings α) (m : PressureModel) : SublimationSettings α :=
  { s with model := .fixed m }

omit [Scalar α] in
@[simp] theorem lawOf_asking (s : SublimationSettings α) (m m' : PressureModel) :
    (s.asking m).lawOf m' = s.lawOf m' := by
  cases m' <;> rfl

@[simp] theorem covers_asking (s : SublimationSettings α) (m m' : PressureModel) (t : α) :
    (s.asking m).Covers t m' ↔ s.Covers t m' := by
  cases m' <;> rfl

/-- A law that an automatic choice uses is accepted by name. -/
theorem isUsable_asking (asked : s.model = .automatic) (usable : s.IsUsable) {t : α}
    {m : PressureModel} (covered : s.Covers t m) : (s.asking m).IsUsable := by
  simp only [IsUsable, asked] at usable
  cases m with
  | clausiusClapeyron => trivial
  | tabulated =>
    obtain ⟨first, _, head, _⟩ := covered
    exact (usable (by rintro none; simp [none] at head)).1
  | localFit =>
    obtain ⟨enough, first, _, head, _⟩ := covered
    have fit := (usable (by rintro none; simp [none] at head)).2 enough
    exact { points := fit.points, enough := fit.enough, window := fit.window, table := fit.table }

/-- How the laws that the settings give answer at a temperature. -/
structure Answers (s : SublimationSettings α) (p : PressureSelector α)
    (temperature : Temperature α) : Prop where
  automatic : s.model = .automatic → ∃ v, p.select temperature = .ok v ∧
    (v.model = .tabulated ↔ s.Covers temperature.kelvin .tabulated) ∧
    (v.model = .localFit ↔ ¬ s.Covers temperature.kelvin .tabulated ∧
      s.Covers temperature.kelvin .localFit) ∧
    (v.model = .clausiusClapeyron ↔ ¬ s.Covers temperature.kelvin .tabulated ∧
      ¬ s.Covers temperature.kelvin .localFit)
  fixed : ∀ m, s.model = .fixed m →
    (∀ e, p.select temperature = .error e ↔
      e = .modelDomainExhausted m temperature.kelvin ∧ ¬ s.Covers temperature.kelvin m) ∧
    ∀ v, p.select temperature = .ok v → v.model = m
  /-- The law that an automatic choice uses is accepted by name and gives the same pressure. -/
  same : s.model = .automatic → ∀ v, p.select temperature = .ok v →
    ∃ p', (s.asking v.model).selector = .ok p' ∧ p'.select temperature = .ok v

/-- **The ladder of laws.** Accepted settings answer at every temperature: an automatic choice by
the first law that holds, a law asked for by name in its domain only, and both alike where they use
the same law. -/
theorem answers_of_selector {p : PressureSelector α} (accepted : s.selector = .ok p)
    (temperature : Temperature α) : s.Answers p temperature := by
  constructor
  case automatic =>
    intro asked
    obtain ⟨m, first, law⟩ := law_automatic asked accepted temperature.kelvin
    refine ⟨_, PressureSelector.select_of_law law, ?_⟩
    simpa [PressureLaw.evaluation] using first.model_iff
  case fixed =>
    intro m asked
    rcases law_fixed asked accepted temperature.kelvin with ⟨covered, law⟩ | ⟨outside, law⟩
    · have selected := PressureSelector.select_of_law law
      refine ⟨fun e => by simp [selected, covered], fun v hv => ?_⟩
      obtain rfl := Except.ok.inj (selected.symm.trans hv)
      simp [PressureLaw.evaluation]
    · have failed := PressureSelector.select_eq_error_iff.mpr law
      refine ⟨fun e => ?_, fun v hv => by simp [failed] at hv⟩
      simp only [failed, Except.error.injEq, outside, not_false_eq_true, and_true]
      exact eq_comm
  case same =>
    intro asked v selected
    obtain ⟨m, first, law⟩ := law_automatic asked accepted temperature.kelvin
    obtain rfl := Except.ok.inj ((PressureSelector.select_of_law law).symm.trans selected)
    have usable := isUsable_asking asked (selector_isOk_iff.mp ⟨p, accepted⟩) first.covers
    obtain ⟨p', accepted'⟩ := selector_isOk_iff.mpr usable
    have model : (s.lawOf m).model = m := model_lawOf s m
    refine ⟨p', by simpa [PressureLaw.evaluation] using accepted', ?_⟩
    rcases law_fixed rfl accepted' temperature.kelvin with ⟨_, law'⟩ | ⟨outside, _⟩
    · rw [PressureSelector.select_of_law law', lawOf_asking]
    · exact absurd ((covers_asking s m m _).mpr first.covers) outside

/-- Three measurements between 1500 K and 1700 K are interpolated at 1650 K, fitted at 2000 K, and
left to the last law at 2500 K. -/
theorem answers_of_selector_measured :
    let measured : SublimationSettings ℝ :=
      { default with table := [⟨1500, 1⟩, ⟨1600, 2⟩, ⟨1700, 3⟩] }
    ∃ p, measured.selector = .ok p ∧ (∀ T, measured.Answers p T) ∧
      (∃ v, p.select ⟨1650⟩ = .ok v ∧ v.model = .tabulated) ∧
      (∃ v, p.select ⟨2000⟩ = .ok v ∧ v.model = .localFit) ∧
      ∃ v, p.select ⟨2500⟩ = .ok v ∧ v.model = .clausiusClapeyron := by
  intro measured
  have table : PressureRow.IsTable measured.table := {
    several := by simp [measured]
    usable := by simp [measured]
    ascending := by simp [measured, Table.descends]; norm_num }
  have usable : measured.IsUsable := fun _ => ⟨table, fun _ => {
    points := by norm_num [measured, default]
    enough := by simp [measured, default]
    window := by norm_num [measured, default]
    table }⟩
  obtain ⟨p, accepted⟩ := selector_isOk_iff.mpr usable
  have answers := answers_of_selector accepted
  refine ⟨p, accepted, answers, ?_, ?_, ?_⟩
  · obtain ⟨v, selected, tabulated, _, _⟩ := (answers ⟨1650⟩).automatic rfl
    exact ⟨v, selected, tabulated.mpr (by norm_num [Covers, measured])⟩
  · obtain ⟨v, selected, _, fit, _⟩ := (answers ⟨2000⟩).automatic rfl
    exact ⟨v, selected, fit.mpr (by norm_num [Covers, measured, default])⟩
  · obtain ⟨v, selected, _, _, last⟩ := (answers ⟨2500⟩).automatic rfl
    exact ⟨v, selected, last.mpr (by norm_num [Covers, measured, default])⟩

end SublimationSettings
end DebrisDisk
