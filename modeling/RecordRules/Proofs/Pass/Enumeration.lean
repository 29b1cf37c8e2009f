/-
A validation is an enumeration of the visited fields.

A walk moves what it finds in a record into the field that holds the record, level by level and
from the inside out. The visits carry whole paths, from the outside in. Both give the same list.

* **`Failure.under_eq_within`**, **`Failure.under_atField`** — moving a failure into one field after
  another is one move, into the path of all their names;
* **`Value.failures_visits`** — the visits under some fields find what the walk finds, moved into
  these fields;
* **`validate_eq_failures`** — a validation reports the failures of all visits, in order.
-/
import Mathlib.Data.List.Basic
import RecordRules.Pass.Visit
import RecordRules.Proofs.Pass.Schedule

namespace RecordRules

/-! ### Paths -/

theorem dotted_cons (name : String) {names : List String} (h : names ≠ []) :
    dotted (name :: names) = name ++ "." ++ dotted names :=
  String.intercalate_cons_of_ne_nil h

/-- A failure moved into fields, from the innermost, which is the last one, to the outermost. -/
def Failure.under (around : List String) (f : Failure) : Failure :=
  around.foldr (fun name f => f.within name) f

@[simp] theorem Failure.under_nil (f : Failure) : f.under [] = f := rfl

theorem Failure.under_concat (around : List String) (name : String) (f : Failure) :
    f.under (around ++ [name]) = (f.within name).under around := by
  simp [under]

/-- Any number of moves are one move, into the path of all names. -/
theorem Failure.under_eq_within (f : Failure) (around : List String) (name : String) :
    f.under (around ++ [name]) = f.within (dotted (around ++ [name])) := by
  -- from the outside in: the outermost name is the first of the path and the last move
  induction around with
  | nil => simp [under, dotted]
  | cons outer around ih =>
    show (f.under (around ++ [name])).within outer = _
    rw [ih, within_within, List.cons_append, dotted_cons outer (by simp)]

theorem Failure.under_atField (f : Failure) (around : List String) (name : String) :
    (f.atField name).under around = f.atField (dotted (around ++ [name])) := by
  -- a failure at a path is one without a path that is moved into it
  have hname : f.atField name = ({ f with field := none } : Failure).within name := rfl
  rw [hname, ← under_concat, under_eq_within]
  rfl

/-! ### The checks of one field -/

theorem Pass.failures_concat (ps : List Pass) :
    (Pass.concat ps).report.failures = ps.flatMap fun p => p.report.failures := by
  induction ps with
  | nil => rfl
  | cons p ps ih => simp [Pass.concat, ih]

variable {s : Settings}

theorem Settings.failures_checkField (f : Field) :
    (s.checkField f).report.failures
      = f.calls.filterMap fun call =>
          (s.finding? call f.value).map fun finding => finding.toFailure.atField f.name := by
  rw [checkField, Pass.report_append, Report.failures_append, Pass.failures_concat,
    List.flatMap_map, List.filterMap_eq_flatMap_toList]
  refine List.flatMap_congr ?_
  intro call _
  rw [report_check]
  cases s.finding? call f.value <;> rfl

/-- A visit finds what the checks of its field find, moved into the fields around it. -/
theorem Visit.failures_eq (around : List String) (f : Field) :
    Visit.failures s ⟨around, f⟩ = (s.checkField f).report.failures.map (Failure.under around) := by
  rw [Settings.failures_checkField, List.map_filterMap]
  refine List.filterMap_congr ?_
  intro call _
  rw [Option.map_map]
  refine Option.map_congr ?_
  intro finding _
  exact (Failure.under_atField _ around f.name).symm

/-! ### The walk of a record -/

/-- The visits of a field find what its walk finds, if those of its value do. -/
theorem Field.failures_visits {f : Field} (around : List String)
    (h : (f.value.visits (around ++ [f.name])).flatMap (Visit.failures s)
      = (s.walkValue f.value).report.failures.map (Failure.under (around ++ [f.name]))) :
    (f.visits around).flatMap (Visit.failures s)
      = (s.walkField f).report.failures.map (Failure.under around) := by
  rw [Field.visits_eq, List.flatMap_cons, Visit.failures_eq, h, Settings.walk_field,
    Pass.report_append, Report.failures_append, List.map_append, Pass.report_within,
    Report.failures_within, List.map_map]
  -- below the field the walk moves into the field first, and into the fields around it after that
  congr 1
  refine List.map_congr_left ?_
  intro failure _
  exact Failure.under_concat around f.name failure

theorem Field.failures_visitsOfAll {fields : List Field} (around : List String)
    (h : ∀ f ∈ fields, ∀ around, (f.value.visits around).flatMap (Visit.failures s)
      = (s.walkValue f.value).report.failures.map (Failure.under around)) :
    (Field.visitsOfAll around fields).flatMap (Visit.failures s)
      = (s.walkAll fields).report.failures.map (Failure.under around) := by
  induction fields with
  | nil => rfl
  | cons f fields ih =>
    have hf := Field.failures_visits around (h f (by simp) (around ++ [f.name]))
    have hrest := ih fun g hg => h g (by simp [hg])
    rw [Field.visitsOfAll_cons, List.flatMap_append, hf, hrest, ← List.map_append]
    rfl

/-- The visits under some fields find what the walk finds, moved into these fields. -/
theorem Value.failures_visits (v : Value) : ∀ around : List String,
    (v.visits around).flatMap (Visit.failures s)
      = (s.walkValue v).report.failures.map (Failure.under around) := by
  -- every `around` at once, since the fields of a record stand under one name more
  induction v using Value.induction with
  | record r ih =>
    intro around
    obtain ⟨typeName, fields⟩ := r
    exact Field.failures_visitsOfAll around ih
  | text | int | uint | float | bool | sequence | mapping | absent | present => intro around; rfl

theorem Settings.failures_walk (r : Record) : (s.walk r).report.failures = r.failures s := by
  have h : r.failures s = (s.walk r).report.failures.map (Failure.under []) :=
    Value.failures_visits (.record r) []
  have hnil : Failure.under [] = id := funext Failure.under_nil
  rw [h, hnil, List.map_id]

/-! ### Validations -/

/-- Whatever the schedule, the walk of a validator reports the failures of all visits, in order. -/
theorem Validator.report_walk (v : Validator) (r : Record) :
    (v.walk r).report = .ofList (r.failures v.settings) := by
  rw [Validator.walk]
  cases v.config.fanOut with
  | parallel =>
    show (v.settings.walkAtOnce r).report = _
    rw [Settings.walkAtOnce_eq, ← Settings.failures_walk]
    rfl
  | sequential =>
    show (v.settings.walk r).report = _
    rw [← Settings.failures_walk]
    rfl

theorem Record.failures_eq_nil_iff (r : Record) :
    r.failures s = [] ↔
      ∀ visit ∈ r.visits [], ∀ call ∈ visit.calls, s.finding? call visit.field.value = none := by
  simp [Record.failures, Visit.failures]

theorem Validator.failures_validate (v : Validator) (r : Record) :
    (v.validate r).report.failures = r.failures v.settings := by
  rw [Validator.report_validate, Validator.report_walk]
  rfl

theorem Validator.mem_failures_validate_iff {v : Validator} {r : Record} {failure : Failure} :
    failure ∈ (v.validate r).report.failures ↔
      ∃ visit ∈ r.visits [], failure ∈ visit.failures v.settings := by
  rw [failures_validate, Record.failures, List.mem_flatMap]

theorem Validator.validate_eq_ok_iff_failures (v : Validator) (r : Record) :
    v.validate r = .ok () ↔ r.failures v.settings = [] := by
  rw [Validator.validate_eq_ok_iff, Validator.report_walk, Report.ext_iff]
  rfl

/-- **A validation is an enumeration.** It reports the failures that the calls of the visited fields
find, in the order of the visits and of the calls, and is a success exactly where they find none. -/
theorem validate_eq_failures (v : Validator) (r : Record) :
    v.validate r
        = (if r.failures v.settings = [] then .ok ()
            else .error (.ofList (r.failures v.settings))) ∧
      (v.validate r = .ok () ↔
        ∀ visit ∈ r.visits [], ∀ call ∈ visit.calls,
          v.settings.finding? call visit.field.value = none) := by
  have hvalidate : v.validate r = if r.failures v.settings = [] then .ok ()
      else .error (.ofList (r.failures v.settings)) := by
    rw [Validator.validate, Validator.report_pass, Validator.report_walk, Report.toExcept_ofList]
  refine ⟨hvalidate, ?_⟩
  rw [← Record.failures_eq_nil_iff, hvalidate]
  by_cases h : r.failures v.settings = []
  · rw [if_pos h]
    exact iff_of_true rfl h
  · rw [if_neg h]
    exact iff_of_false (by simp) h

end RecordRules
