/-
Zero records miss all that they require.

Whether a record is zero is up to the values that are reached through records directly inside one
another, and these are the values of the fields that a walk visits. So a record that fails
`required` has no field, at any depth, that would pass it.

* **`Value.isZero_iff_forall_reaches`** — a value is zero when all that it reaches and is no record
  is zero;
* **`Value.reaches_of_mem_visits`** — the visits go to values that are reached;
* **`Visit.missing_mem_failures`**, **`Visit.eq_missing_of_code`** — a visited field is found
  missing exactly where it asks for `required` and its value is zero;
* **`Validator.zero_records_miss_required`** — so whoever is told that a record is missing is told
  so of all required fields in it.
-/
import RecordRules.Proofs.Pass.Paths
import RecordRules.Proofs.Rule.Violations

namespace RecordRules

/-! ### Values in records -/

/-- What is reached from a value through records directly inside one another: the value itself, and
what is reached from the fields of a record. What an optional holds is not reached. -/
inductive Value.Reaches : Value → Value → Prop where
  | self (v : Value) : Reaches v v
  | inside {r : Record} {f : Field} {w : Value} (hf : f ∈ r.fields) (hw : Reaches f.value w) :
    Reaches (.record r) w

namespace Value

theorem reaches_record_iff {r : Record} {w : Value} :
    (record r).Reaches w ↔ w = record r ∨ ∃ f ∈ r.fields, f.value.Reaches w := by
  constructor
  · intro h
    cases h with
    | self => exact .inl rfl
    | inside hf hw => exact .inr ⟨_, hf, hw⟩
  · rintro (rfl | ⟨f, hf, hw⟩)
    · exact .self _
    · exact .inside hf hw

theorem eq_of_reaches {v w : Value} (hv : v.kind ≠ .record) (h : v.Reaches w) : w = v := by
  cases h with
  | self => rfl
  | inside => exact absurd rfl hv

/-- A value is zero when all that it reaches and is no record is zero. -/
theorem isZero_iff_forall_reaches (v : Value) :
    v.isZero = true ↔ ∀ w, v.Reaches w → w.kind ≠ .record → w.isZero = true := by
  induction v using Value.induction with
  | record r ih =>
    rw [isZero_record, List.all_eq_true]
    constructor
    · intro h w hw hkind
      rcases reaches_record_iff.1 hw with rfl | ⟨f, hf, hw⟩
      · exact absurd rfl hkind
      · exact (ih f hf).1 (h f hf) w hw hkind
    · intro h f hf
      exact (ih f hf).2 fun w hw hkind => h w (.inside hf hw) hkind
  | text | int | uint | float | bool | sequence | mapping | absent | present =>
    constructor
    · intro h w hw _
      rwa [eq_of_reaches (by simp [kind]) hw]
    · intro h
      exact h _ (.self _) (by simp [kind])

theorem isZero_of_reaches {v w : Value} (h : v.Reaches w) (hzero : v.isZero = true) :
    w.isZero = true := by
  induction h with
  | self => exact hzero
  | inside hf _ ih =>
    rw [isZero_record, List.all_eq_true] at hzero
    exact ih (hzero _ hf)

/-! ### Visited values -/

/-- The visits go to values that are reached. -/
theorem reaches_of_mem_visits (v : Value) : ∀ (around : List String) {visit : Visit},
    visit ∈ v.visits around → v.Reaches visit.field.value := by
  induction v using Value.induction with
  | record r ih =>
    intro around visit hvisit
    rw [visits_record, List.mem_flatMap] at hvisit
    obtain ⟨f, hf, hvisit⟩ := hvisit
    rcases Field.mem_visits.1 hvisit with rfl | hvisit
    · exact .inside hf (.self _)
    · exact .inside hf (ih f hf _ hvisit)
  | text | int | uint | float | bool | sequence | mapping | absent | present =>
    intro around visit hvisit
    cases hvisit

/-- What is visited in a visited field is visited from outside. -/
theorem mem_visits_trans (v : Value) : ∀ (around : List String) {outer inner : Visit},
    outer ∈ v.visits around → inner ∈ outer.field.value.visits outer.names →
      inner ∈ v.visits around := by
  induction v using Value.induction with
  | record r ih =>
    intro around outer inner houter hinner
    rw [visits_record, List.mem_flatMap] at houter ⊢
    obtain ⟨f, hf, houter⟩ := houter
    refine ⟨f, hf, Field.mem_visits.2 (.inr ?_)⟩
    rcases Field.mem_visits.1 houter with rfl | houter
    · exact hinner
    · exact ih f hf _ houter hinner
  | text | int | uint | float | bool | sequence | mapping | absent | present =>
    intro around outer inner houter
    cases houter

end Value

/-! ### Missing fields -/

theorem Spec.Problem.code_ne_required (problem : Problem) :
    problem.toFailure.code ≠ "required" := by
  cases problem <;> exact ne_of_beq_false rfl

namespace Visit

/-- Whether the rules of a visited field ask for `required`. -/
def Requires (visit : Visit) : Prop := ∃ call ∈ visit.calls, call.name = "required"

/-- The failure of a visited field that is required and zero. -/
def missing (visit : Visit) : Failure where
  code := "required"
  message := Violation.missingMessage visit.field.value.kind
  field := some visit.path
  params := [("kind", visit.field.value.kind.name)]

variable {visit : Visit} {s : Settings}

theorem missing_mem_failures (hrequires : visit.Requires)
    (hzero : visit.field.value.isZero = true) : visit.missing ∈ visit.failures s := by
  obtain ⟨⟨name, options⟩, hcall, rfl⟩ := hrequires
  have hrule : Spec.Call.rule s.custom ⟨"required", options⟩ = .ok .required := rfl
  refine mem_failures_iff.2 ⟨_, hcall, .violation (.missing visit.field.value.kind), ?_, rfl⟩
  rw [Settings.finding?, hrule]
  simp only [Rule.violation?_required, hzero, if_true, Option.map_some]

/-- A failure with the code of `required` is that of a zero value in a field that asks for it. -/
theorem eq_missing_of_code {failure : Failure} (h : failure ∈ visit.failures s)
    (hcode : failure.code = "required") :
    failure = visit.missing ∧ visit.Requires ∧ visit.field.value.isZero = true := by
  obtain ⟨call, hcall, finding, hfinding, rfl⟩ := mem_failures_iff.1 h
  cases finding with
  | problem problem => exact absurd hcode problem.code_ne_required
  | violation violation =>
    obtain ⟨rule, hrule, hviolation⟩ := Settings.exists_rule_of_finding? hfinding
    rcases Rule.violation?_cases hviolation with ⟨rfl, hzero, rfl⟩ | ⟨-, w, -, hheld⟩
    · have hname := RuleName.ofText?_eq_some_iff.1 (Spec.Call.ruleName?_of_rule_eq_ok hrule)
      exact ⟨rfl, ⟨call, hcall, hname.symm⟩, hzero⟩
    · exact absurd hcode hheld.code_ne_required

end Visit

/-- What a visited field is found to fail is reported. -/
theorem Validator.mem_report_of_mem_failures {validator : Validator} {r : Record} {visit : Visit}
    {failure : Failure} (hvisit : visit ∈ r.visits [])
    (h : failure ∈ visit.failures validator.settings) :
    failure ∈ (validator.validate r).report.failures :=
  mem_failures_validate_iff.2 ⟨visit, hvisit, h⟩

/-- **Zero records miss all that they require.** A record is zero exactly where every value in it
that is no record is, however deep it stands in records directly inside one another. The validation
of a zero record then reports every visited field that asks for `required`, under its whole path.
So wherever a field with a record in it fails `required`, all fields in that record which ask for
`required` are reported too. -/
theorem Validator.zero_records_miss_required (validator : Validator) (r : Record) :
    ((Value.record r).isZero = true ↔
        ∀ w, (Value.record r).Reaches w → w.kind ≠ .record → w.isZero = true) ∧
      ((Value.record r).isZero = true → ∀ visit ∈ r.visits [], visit.Requires →
        visit.missing ∈ (validator.validate r).report.failures) ∧
      ∀ outer ∈ r.visits [], ∀ inside, outer.field.value = .record inside →
        (∃ failure ∈ outer.failures validator.settings, failure.code = "required") →
          ∀ visit ∈ inside.visits outer.names, visit.Requires →
            visit.missing ∈ (validator.validate r).report.failures := by
  -- what is visited is reached, so a visited value is zero wherever the whole record is
  have hmissing : ∀ v : Value, v.isZero = true → ∀ around, ∀ visit ∈ v.visits around,
      visit.Requires → visit.missing ∈ visit.failures validator.settings := by
    intro v hzero around visit hvisit hrequires
    exact Visit.missing_mem_failures hrequires
      (Value.isZero_of_reaches (v.reaches_of_mem_visits around hvisit) hzero)
  refine ⟨Value.isZero_iff_forall_reaches _, ?_, ?_⟩
  · intro hzero visit hvisit hrequires
    exact mem_report_of_mem_failures hvisit (hmissing (.record r) hzero [] visit hvisit hrequires)
  · rintro outer houter inside hinside ⟨failure, hfailure, hcode⟩ visit hvisit hrequires
    obtain ⟨-, -, hzero⟩ := Visit.eq_missing_of_code hfailure hcode
    have hmem : visit ∈ outer.field.value.visits outer.names := by
      rw [hinside]
      exact hvisit
    exact mem_report_of_mem_failures ((Value.record r).mem_visits_trans [] houter hmem)
      (hmissing _ hzero _ visit hmem hrequires)

/-- The person is not zero, but the home is: it has an empty text, and a record without fields. -/
theorem Validator.zero_records_miss_required_home :
    let extras : Field := ⟨"extras", .record ⟨"Extras", []⟩, "min_length=1,required", none⟩
    let home : Record := ⟨"Home", [⟨"city", .text "", "email", none⟩, extras]⟩
    let outer : Field := ⟨"home", .record home, "required", none⟩
    let person : Record := ⟨"Person", [⟨"name", .text "Ada", "required", none⟩, outer]⟩
    ⟨[], outer⟩ ∈ person.visits [] ∧
      Visit.missing ⟨[], outer⟩ ∈ Visit.failures Validator.standard.settings ⟨[], outer⟩ ∧
      ⟨["home"], extras⟩ ∈ home.visits ["home"] ∧ Visit.Requires ⟨["home"], extras⟩ ∧
      Visit.missing ⟨["home"], extras⟩ ∈ (Validator.standard.validate person).report.failures := by
  intro extras home outer person
  have houter : ⟨[], outer⟩ ∈ person.visits [] := person.mem_visits_of_mem (by simp [person]) []
  have hextras : ⟨["home"], extras⟩ ∈ home.visits ["home"] :=
    home.mem_visits_of_mem (by simp [home]) ["home"]
  have hrequires : Visit.Requires ⟨["home"], extras⟩ :=
    ⟨⟨"required", ""⟩, by decide +kernel, rfl⟩
  have hmissing : Visit.missing ⟨[], outer⟩
      ∈ Visit.failures Validator.standard.settings ⟨[], outer⟩ := by decide +kernel
  exact ⟨houter, hmissing, hextras, hrequires,
    (Validator.zero_records_miss_required .standard person).2.2 _ houter home rfl
      ⟨_, hmissing, rfl⟩ _ hextras hrequires⟩

end RecordRules
