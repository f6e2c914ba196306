import Mathlib
import DebrisDisk.Proofs.Exact.Closure

/-!
# Audits

The accounts of a run are the only guard against a process that moves mass and does not say so. An
audit asks a ledger, from its opening on, to record flows and to be checked, in any order. Recorded
flows add up, the recorded mass replaces the one before it, and a check that passes is noted. So at
any moment the discrepancy is what the calls leave unaccounted for, added up separately for supply
and for each of the six sinks, and a check fails just when that is beyond the tolerance.

## Main definitions

* `LedgerCall`, `Audit`: what is asked of a ledger, and the ledger with the answers of its checks.
* `LedgerCall.unaccounted`: the mass that a sequence of calls leaves unexplained.
* `Audit.Detects`: the next check, and the checks before it.

## Main results

* `Audit.Reconciles.serve`: one call keeps the ledger equal to the sums over the calls.
* `Audit.detects_unaccounted_mass`: every ledger after every sequence of calls.
-/

namespace DebrisDisk
open Scalar

/-! ## All flows together -/

namespace MassFlows

/-- All that was supplied. -/
def supplied (flows : List (MassFlows ℝ)) : ℝ := (flows.map (·.supply)).sum

/-- All that was lost, sink by sink. -/
def drained (flows : List (MassFlows ℝ)) : ℝ :=
  (flows.map (·.blowout)).sum + (flows.map (·.sublimation)).sum + (flows.map (·.collisions)).sum +
    (flows.map (·.floor)).sum + (flows.map (·.gasDrag)).sum + (flows.map (·.hydroEscape)).sum

theorem supplied_append (flows : List (MassFlows ℝ)) (f : MassFlows ℝ) :
    supplied (flows ++ [f]) = supplied flows + f.sources := by
  simp [supplied, sources]

theorem drained_append (flows : List (MassFlows ℝ)) (f : MassFlows ℝ) :
    drained (flows ++ [f]) = drained flows + f.sinks := by
  simp only [drained, sinks, List.map_append, List.map_cons, List.map_nil, List.sum_append,
    List.sum_singleton]
  ring

end MassFlows

/-! ## Calls -/

/-- What is asked of a ledger. -/
inductive LedgerCall where
  | record (flows : MassFlows ℝ) (current : Mass ℝ)
  | check

namespace LedgerCall

/-- The flows that are recorded. -/
def flows? : LedgerCall → Option (MassFlows ℝ)
  | record flows _ => some flows
  | check => none

/-- The mass in kilograms that is recorded. -/
def kilograms? : LedgerCall → Option ℝ
  | record _ current => some current.kilograms
  | check => none

variable (kg : ℝ) (calls : List LedgerCall)

/-- The flows that were recorded, in order. -/
def recordedFlows : List (MassFlows ℝ) := calls.filterMap flows?

/-- The mass in kilograms that was recorded last, or the initial one. -/
def lastMass : ℝ := (calls.filterMap kilograms?).getLast?.getD kg

/-- The mass in kilograms that the recorded flows do not explain. -/
def unaccounted : ℝ :=
  kg + MassFlows.supplied (recordedFlows calls) - MassFlows.drained (recordedFlows calls) -
    lastMass kg calls

@[simp] theorem recordedFlows_record (flows : MassFlows ℝ) (current : Mass ℝ) :
    recordedFlows (calls ++ [record flows current]) = recordedFlows calls ++ [flows] := by
  simp [recordedFlows, flows?]

@[simp] theorem recordedFlows_check : recordedFlows (calls ++ [check]) = recordedFlows calls := by
  simp [recordedFlows, flows?]

@[simp] theorem lastMass_record (flows : MassFlows ℝ) (current : Mass ℝ) :
    lastMass kg (calls ++ [record flows current]) = current.kilograms := by
  simp [lastMass, kilograms?]

@[simp] theorem lastMass_check : lastMass kg (calls ++ [check]) = lastMass kg calls := by
  simp [lastMass, kilograms?]

end LedgerCall

/-! ## The ledger between calls -/

/-- A ledger, and what its checks have answered. -/
structure Audit where
  ledger : MassLedger ℝ
  /-- The error that each check found within the tolerance, or its complaint. -/
  answers : List (Except (StepError ℝ) ℝ)

namespace Audit

/-- One call is answered. A check that fails hands back no accounts. -/
noncomputable def serve (a : Audit) : LedgerCall → Audit
  | .record flows current => { a with ledger := a.ledger.record flows current }
  | .check =>
    match a.ledger.check with
    | .ok (error, ledger) => { ledger, answers := a.answers ++ [.ok error] }
    | .error e => { a with answers := a.answers ++ [.error e] }

/-- A sequence of calls is answered. -/
noncomputable def afterCalls (a : Audit) (calls : List LedgerCall) : Audit := calls.foldl serve a

/-- The errors that checks have found within the tolerance. -/
def passed (a : Audit) : List ℝ := a.answers.filterMap Except.toOption

theorem serve_of_ok {a : Audit} {error : ℝ} {l : MassLedger ℝ}
    (h : a.ledger.check = .ok (error, l)) :
    a.serve .check = { ledger := l, answers := a.answers ++ [.ok error] } := by
  simp only [serve, h]

theorem serve_of_error {a : Audit} {e : StepError ℝ} (h : a.ledger.check = .error e) :
    a.serve .check = { a with answers := a.answers ++ [.error e] } := by
  simp only [serve, h]

theorem passed_of_ok {a : Audit} {error : ℝ} {l : MassLedger ℝ}
    (h : a.ledger.check = .ok (error, l)) : (a.serve .check).passed = a.passed ++ [error] := by
  simp [serve_of_ok h, passed, Except.toOption]

theorem passed_of_error {a : Audit} {e : StepError ℝ} (h : a.ledger.check = .error e) :
    (a.serve .check).passed = a.passed := by
  simp [serve_of_error h, passed, Except.toOption]

/-- The greatest error that was noted never decreases. -/
theorem maxError_le_serve (a : Audit) (call : LedgerCall) :
    a.ledger.maxError ≤ (a.serve call).ledger.maxError := by
  cases call with
  | record flows current => exact le_rfl
  | check =>
    cases checked : a.ledger.check with
    | error e => rw [serve_of_error checked]
    | ok answer =>
      obtain ⟨error, l⟩ := answer
      obtain ⟨_, _, rfl⟩ := MassLedger.check_eq_ok checked
      rw [serve_of_ok checked, fmax_real]
      exact le_max_left _ _

theorem maxError_le_afterCalls (a : Audit) (calls : List LedgerCall) :
    a.ledger.maxError ≤ (a.afterCalls calls).ledger.maxError := by
  induction calls generalizing a with
  | nil => exact le_rfl
  | cons call rest ih => exact (a.maxError_le_serve call).trans (ih (a.serve call))

/-! ## The sums over the calls -/

/-- The ledger holds the sums over the calls, and has noted the greatest of the errors that
passed. -/
structure Reconciles (a : Audit) (kg percent : ℝ) (calls : List LedgerCall) : Prop where
  initial : a.ledger.initial = kg
  tolerance : a.ledger.tolerance = percent
  sources : a.ledger.totals.sources = MassFlows.supplied (LedgerCall.recordedFlows calls)
  sinks : a.ledger.totals.sinks = MassFlows.drained (LedgerCall.recordedFlows calls)
  current : a.ledger.current = LedgerCall.lastMass kg calls
  noted : a.ledger.maxError = a.passed.foldl max 0
  within : ∀ error ∈ a.passed, error ≤ percent

namespace Reconciles
variable {a : Audit} {kg percent : ℝ} {calls : List LedgerCall}

/-- A check that fails leaves everything as it is. -/
theorem failed (h : a.Reconciles kg percent calls) {e : StepError ℝ}
    (failed : a.ledger.check = .error e) :
    (a.serve .check).Reconciles kg percent (calls ++ [.check]) where
  initial := by rw [serve_of_error failed, h.initial]
  tolerance := by rw [serve_of_error failed, h.tolerance]
  sources := by rw [serve_of_error failed, LedgerCall.recordedFlows_check, h.sources]
  sinks := by rw [serve_of_error failed, LedgerCall.recordedFlows_check, h.sinks]
  current := by rw [serve_of_error failed, LedgerCall.lastMass_check, h.current]
  noted := by rw [passed_of_error failed, serve_of_error failed, h.noted]
  within := by rw [passed_of_error failed]; exact h.within

/-- A check that passes leaves the sums as they are and notes its error. -/
theorem checked (h : a.Reconciles kg percent calls) {error : ℝ} {l : MassLedger ℝ}
    (passed : a.ledger.check = .ok (error, l)) :
    (a.serve .check).Reconciles kg percent (calls ++ [.check]) := by
  obtain ⟨_, fine, rfl⟩ := MassLedger.check_eq_ok passed
  rw [h.tolerance] at fine
  exact {
    initial := by rw [serve_of_ok passed, h.initial]
    tolerance := by rw [serve_of_ok passed, h.tolerance]
    sources := by rw [serve_of_ok passed, LedgerCall.recordedFlows_check, h.sources]
    sinks := by rw [serve_of_ok passed, LedgerCall.recordedFlows_check, h.sinks]
    current := by rw [serve_of_ok passed, LedgerCall.lastMass_check, h.current]
    noted := by
      rw [passed_of_ok passed, List.foldl_append, ← h.noted, serve_of_ok passed]
      exact fmax_real
    within := by
      intro error' member
      rw [passed_of_ok passed, List.mem_append, List.mem_singleton] at member
      rcases member with earlier | rfl
      · exact h.within error' earlier
      · exact fine }

/-- Recorded flows add up, and the recorded mass replaces the one before it. -/
theorem recorded (h : a.Reconciles kg percent calls) (flows : MassFlows ℝ) (current : Mass ℝ) :
    (a.serve (.record flows current)).Reconciles kg percent
      (calls ++ [.record flows current]) where
  initial := h.initial
  tolerance := h.tolerance
  sources := by
    rw [LedgerCall.recordedFlows_record, MassFlows.supplied_append, ← h.sources]
    rfl
  sinks := by
    rw [LedgerCall.recordedFlows_record, MassFlows.drained_append, ← h.sinks]
    exact MassFlows.sinks_add _ _
  current := (LedgerCall.lastMass_record kg calls flows current).symm
  noted := h.noted
  within := h.within

/-- One call keeps the ledger equal to the sums over the calls. -/
theorem serve (h : a.Reconciles kg percent calls) (call : LedgerCall) :
    (a.serve call).Reconciles kg percent (calls ++ [call]) := by
  cases call with
  | record flows current => exact h.recorded flows current
  | check =>
    cases answer : a.ledger.check with
    | error e => exact h.failed answer
    | ok _ => exact h.checked answer

/-- So does every sequence of calls. -/
theorem afterCalls (h : a.Reconciles kg percent calls) (more : List LedgerCall) :
    (a.afterCalls more).Reconciles kg percent (calls ++ more) := by
  induction more generalizing a calls with
  | nil => simpa [Audit.afterCalls] using h
  | cons call rest ih => simpa [Audit.afterCalls] using ih (h.serve call)

theorem discrepancy (h : a.Reconciles kg percent calls) :
    a.ledger.discrepancy = LedgerCall.unaccounted kg calls := by
  rw [MassLedger.discrepancy, h.initial, h.sources, h.sinks, h.current, LedgerCall.unaccounted]

theorem errorPercent (h : a.Reconciles kg percent calls) :
    a.ledger.errorPercent = |LedgerCall.unaccounted kg calls| / kg * 100 := by
  rw [MassLedger.errorPercent, h.discrepancy, h.initial, magnitude_real]
  norm_num

/-- An error is within the tolerance just when what is unaccounted for is within that part of the
initial mass. -/
theorem within_iff (h : a.Reconciles kg percent calls) (positive : 0 < kg) :
    a.ledger.errorPercent ≤ a.ledger.tolerance ↔
      |LedgerCall.unaccounted kg calls| ≤ percent / 100 * kg := by
  rw [h.errorPercent, h.tolerance, ← le_div_iff₀ (by norm_num), div_le_iff₀ positive]

theorem maxError_mem (h : a.Reconciles kg percent calls) (tolerant : 0 ≤ percent) :
    a.ledger.maxError ∈ Set.Icc 0 percent := by
  have bounded (errors : List ℝ) (greatest : ℝ) (start : greatest ∈ Set.Icc 0 percent)
      (fine : ∀ error ∈ errors, error ≤ percent) :
      errors.foldl max greatest ∈ Set.Icc 0 percent := by
    induction errors generalizing greatest with
    | nil => exact start
    | cons error rest ih =>
      have next : max greatest error ∈ Set.Icc 0 percent :=
        ⟨le_max_of_le_left start.1, max_le start.2 (fine error List.mem_cons_self)⟩
      exact ih _ next fun error' member => fine error' (List.mem_cons_of_mem _ member)
  rw [h.noted]
  exact bounded a.passed 0 ⟨le_rfl, tolerant⟩ h.within

end Reconciles

/-- A ledger that was just opened reconciles with no calls. -/
theorem reconciles_opening {kg : ℝ} (positive : 0 < kg) (percent : ℝ) :
    ∃ opened, MassLedger.opening ⟨kg⟩ percent = .ok opened ∧
      Reconciles { ledger := opened, answers := [] } kg percent [] := by
  have usable : isPositive (⟨kg⟩ : Mass ℝ).kilograms = true :=
    isPositive_iff.mpr ⟨positive, rfl⟩
  have opened : MassLedger.opening ⟨kg⟩ percent = .ok
      { initial := kg, totals := .zero, current := kg, tolerance := percent, maxError := 0 } := by
    simp [MassLedger.opening, usable, pure, Except.pure, Quantity.kilograms]
  refine ⟨_, opened, ?_⟩
  constructor <;> simp [passed, MassFlows.supplied, MassFlows.drained, LedgerCall.recordedFlows,
    LedgerCall.lastMass, MassFlows.sources, MassFlows.sinks, MassFlows.zero]

/-! ## Main result -/

/-- What is unaccounted for shows in the next check, and in what the checks have noted. -/
structure Detects (a : Audit) (kg percent gap : ℝ) : Prop where
  discrepancy : a.ledger.discrepancy = gap
  /-- A check fails just when more than the tolerated part of the initial mass is unaccounted
  for. -/
  fails : (∃ e, a.ledger.check = .error e) ↔ percent / 100 * kg < |gap|
  violation : ∀ e, a.ledger.check = .error e →
    e = .budgetViolation (|gap| / kg * 100) percent gap ∧ (a.serve .check).ledger = a.ledger
  /-- A check that passes gives the error and notes it if it is the greatest. -/
  passes : ∀ error l, a.ledger.check = .ok (error, l) → error = |gap| / kg * 100 ∧
    l = { a.ledger with maxError := max a.ledger.maxError error } ∧ (a.serve .check).ledger = l
  greatest : a.ledger.maxError = a.passed.foldl max 0
  within : a.ledger.maxError ∈ Set.Icc 0 percent
  rising : ∀ later, a.ledger.maxError ≤ (a.afterCalls later).ledger.maxError

/-- **A ledger detects unaccounted mass.** Open a ledger with a positive mass and tolerance, record
flows and check it in any order. The discrepancy is the initial mass, with all that was supplied,
without what went into each of the six sinks, and without the mass that was recorded last. A check
fails just when this is more than the tolerated part of the initial mass, says so, and changes
nothing. The greatest error that was noted is that of the checks that passed; it never exceeds the
tolerance and never decreases. -/
theorem detects_unaccounted_mass {kg percent : ℝ} (positive : 0 < kg)
    (tolerant : 0 < percent) :
    ∃ opened, MassLedger.opening ⟨kg⟩ percent = .ok opened ∧
      ∀ calls : List LedgerCall,
        (Audit.afterCalls { ledger := opened, answers := [] } calls).Detects kg percent
          (LedgerCall.unaccounted kg calls) := by
  obtain ⟨opened, accepted, start⟩ := reconciles_opening positive percent
  refine ⟨opened, accepted, fun calls => ?_⟩
  have kept := start.afterCalls calls
  rw [List.nil_append] at kept
  generalize Audit.afterCalls _ calls = a at kept
  constructor
  case discrepancy => exact kept.discrepancy
  case fails =>
    rw [← not_le, ← kept.within_iff positive]
    constructor
    · rintro ⟨e, failed⟩
      exact (MassLedger.check_eq_error failed).1
    · intro beyond
      exact ⟨_, if_neg beyond⟩
  case violation =>
    intro e failed
    rw [(MassLedger.check_eq_error failed).2, kept.errorPercent, kept.tolerance, kept.discrepancy,
      serve_of_error failed]
    exact ⟨rfl, rfl⟩
  case passes =>
    intro error l passed
    obtain ⟨found, _, noted⟩ := MassLedger.check_eq_ok passed
    rw [fmax_real] at noted
    exact ⟨found.trans kept.errorPercent, noted, by rw [serve_of_ok passed]⟩
  case greatest => exact kept.noted
  case within => exact kept.maxError_mem tolerant.le
  case rising => exact maxError_le_afterCalls a

/-- Flows through every process. -/
noncomputable def flowsThroughAll : MassFlows ℝ where
  supply := 50.0
  blowout := 100.0
  sublimation := 30.0
  collisions := 10.0
  floor := 5.0
  gasDrag := 3.0
  hydroEscape := 2.0

/-- A ledger of a tonne with half a percent of tolerance passes the check while every flow is
recorded. When ten kilograms go missing it complains of one percent. -/
theorem detects_unaccounted_mass_leak :
    ∃ opened, MassLedger.opening ⟨1000⟩ (1 / 2) = .ok opened ∧
      let start : Audit := { ledger := opened, answers := [] }
      let balanced := start.afterCalls [.record flowsThroughAll ⟨900⟩]
      let leaking := start.afterCalls
        [.record flowsThroughAll ⟨900⟩, .check, .record .zero ⟨890⟩]
      (¬ ∃ e, balanced.ledger.check = .error e) ∧
        leaking.ledger.check = .error (.budgetViolation 1 (1 / 2) 10) ∧
        (leaking.serve .check).ledger = leaking.ledger ∧
        leaking.ledger.maxError ∈ Set.Icc 0 (1 / 2) := by
  obtain ⟨opened, accepted, detects⟩ :=
    detects_unaccounted_mass (by norm_num : (0 : ℝ) < 1000) (by norm_num : (0 : ℝ) < 1 / 2)
  have closed : LedgerCall.unaccounted 1000 [.record flowsThroughAll ⟨900⟩] = 0 := by
    norm_num [LedgerCall.unaccounted, LedgerCall.recordedFlows, LedgerCall.flows?,
      LedgerCall.lastMass, LedgerCall.kilograms?, List.filterMap_cons, MassFlows.supplied,
      MassFlows.drained, flowsThroughAll, Quantity.kilograms]
  have gap : LedgerCall.unaccounted 1000
      [.record flowsThroughAll ⟨900⟩, .check, .record .zero ⟨890⟩] = 10 := by
    norm_num [LedgerCall.unaccounted, LedgerCall.recordedFlows, LedgerCall.flows?,
      LedgerCall.lastMass, LedgerCall.kilograms?, List.filterMap_cons, MassFlows.supplied,
      MassFlows.drained, MassFlows.zero, flowsThroughAll, Quantity.kilograms]
  have balanced := detects [.record flowsThroughAll ⟨900⟩]
  have leaking := detects [.record flowsThroughAll ⟨900⟩, .check, .record .zero ⟨890⟩]
  rw [closed] at balanced
  rw [gap] at leaking
  obtain ⟨e, failed⟩ := leaking.fails.mpr (by norm_num)
  obtain ⟨complaint, kept⟩ := leaking.violation e failed
  refine ⟨opened, accepted, ?_, ?_, kept, leaking.within⟩
  · rw [balanced.fails]
    norm_num
  · rw [failed, complaint]
    norm_num

end Audit
end DebrisDisk
