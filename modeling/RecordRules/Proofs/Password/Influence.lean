/-
The custom policy has a say in password verdicts only.

Two validators that differ in their custom policies alone find the same, except that a password rule
with readable options may find a password weak for one of them only. Options that give every setting
a value leave nothing to the custom policy, and neither do options that cannot be read.

* **`Settings.finding?_cases`** — what a check finds has nothing to do with the custom policy, or it
  is what a password rule finds under the refined custom policy;
* **`Rule.code_of_password`** — and that has the code of passwords;
* **`Spec.Call.rule_eq_of_ignoresCustom`** — a call that leaves nothing to the custom policy asks for
  the same rule under every one;
* **`Validator.custom_sways_passwords_only`** — so two custom policies make a difference to failures
  of passwords only, and only in fields that leave something to them.
-/
import RecordRules.Proofs.Pass.Enumeration
import RecordRules.Proofs.Password.Precedence

namespace RecordRules

open Text

/-! ### Calls that leave nothing to the custom policy -/

namespace Password.Policy

/-- Options that give every setting a value make the same policy of every policy. -/
theorem refine_eq_of_given {options : List Char} {pairs : List Options.Pair}
    (hpairs : Options.pairs options = .ok pairs)
    (hgiven : ∀ s : Setting, ∃ part ∈ pieces ',' options, (s.given? part).isSome = true)
    (p q : Policy) : p.refine pairs = q.refine pairs := by
  refine ext_value ?_
  intro s
  obtain ⟨part, hpart, hsome⟩ := hgiven s
  obtain ⟨value, hvalue⟩ := Option.isSome_iff_exists.1 hsome
  have hmem : value ∈ pairs.filterMap s.assigned? := by
    rw [← s.filterMap_given? hpairs]
    exact List.mem_filterMap.2 ⟨part, hpart, hvalue⟩
  have hlast := List.getLast?_eq_some_getLast (List.ne_nil_of_mem hmem)
  rw [value_refine, value_refine, hlast]
  rfl

end Password.Policy

namespace Spec.Call

/-- Whether a call leaves nothing to the custom policy: if it names the password rule, a part spoils
its options, or they give every setting a value. -/
def IgnoresCustom (c : Call) : Prop :=
  c.ruleName? = some .password →
    (∃ part ∈ pieces ',' c.options.toList, Password.Policy.isSpoilt part = true) ∨
      ∀ s : Password.Setting, ∃ part ∈ pieces ',' c.options.toList, (s.given? part).isSome = true

theorem rule_eq_of_ignoresCustom {c : Call} (h : c.IgnoresCustom)
    (custom other : Option Password.Policy) : c.rule custom = c.rule other := by
  rcases c.rule_cases with ⟨result, hrule⟩ | ⟨pairs, hname, hpairs, hrule⟩
  · rw [hrule, hrule]
  · rcases h hname with ⟨part, hpart, hspoilt⟩ | hgiven
    · -- the options have been read, so no part of them spoils them
      have hnone := List.find?_eq_none.1 (Password.Policy.find?_isSpoilt_of_pairs hpairs)
      exact absurd hspoilt (hnone part hpart)
    · rw [hrule, hrule, Password.Policy.refine_eq_of_given hpairs hgiven]

end Spec.Call

/-! ### Checks under two custom policies -/

/-- Whatever a password rule finds has the code of passwords. -/
theorem Rule.code_of_password {p : Password.Policy} {v : Value} {violation : Violation}
    (h : (password p).violation? v = some violation) : violation.toFailure.code = "password" := by
  rw [violation?_of_ne_required (by simp), Option.bind_eq_some_iff] at h
  obtain ⟨w, -, hw⟩ := h
  cases w with
  | text s =>
    obtain ⟨weakness, -, rfl⟩ := Option.map_eq_some_iff.1 hw
    cases weakness <;> rfl
  | int | uint | float | bool | sequence | mapping | absent | present | record =>
    cases hw
    rfl

namespace Settings

/-- What the custom policy has a say in: either nothing that a check finds, or what a password rule
finds under the custom policy, refined by the pairs of the options. -/
theorem finding?_cases (unknownRules : UnknownRules) (call : Spec.Call) (v : Value) :
    (∃ found, ∀ custom, finding? ⟨custom, unknownRules⟩ call v = found) ∨
      ∃ pairs, ∀ custom, finding? ⟨custom, unknownRules⟩ call v
        = ((Rule.password ((custom.getD .standard).refine pairs)).violation? v).map
            .violation := by
  rcases call.rule_cases with ⟨result, hrule⟩ | ⟨pairs, -, -, hrule⟩
  · refine .inl ⟨finding? ⟨none, unknownRules⟩ call v, fun custom => ?_⟩
    simp only [finding?, hrule]
  · refine .inr ⟨pairs, fun custom => ?_⟩
    simp only [finding?, hrule]

theorem finding?_eq_of_ignoresCustom {call : Spec.Call} (h : call.IgnoresCustom)
    (custom other : Option Password.Policy) (unknownRules : UnknownRules) (v : Value) :
    finding? ⟨custom, unknownRules⟩ call v = finding? ⟨other, unknownRules⟩ call v := by
  unfold finding?
  rw [Spec.Call.rule_eq_of_ignoresCustom h custom other]

end Settings

/-! ### Visits and validations -/

/-- Whether a failure has the code of passwords. -/
def Failure.isOfPassword (f : Failure) : Bool := f.code = "password"

variable (custom other : Option Password.Policy) (unknownRules : UnknownRules)

/-- Apart from the failures of passwords, a visit finds the same under all custom policies. -/
theorem Visit.filter_isOfPassword (visit : Visit) :
    (visit.failures ⟨custom, unknownRules⟩).filter (!·.isOfPassword)
      = (visit.failures ⟨other, unknownRules⟩).filter (!·.isOfPassword) := by
  unfold Visit.failures
  rw [List.filter_filterMap, List.filter_filterMap]
  refine List.filterMap_congr ?_
  intro call _
  rcases Settings.finding?_cases unknownRules call visit.field.value with
    ⟨found, h⟩ | ⟨pairs, h⟩
  · rw [h, h]
  · -- the verdicts on a password may differ, but none of them is left
    have hnone : ∀ custom : Option Password.Policy,
        Option.filter (fun f => !f.isOfPassword)
          ((Settings.finding? ⟨custom, unknownRules⟩ call visit.field.value).map
            fun finding => finding.toFailure.atField visit.path) = none := by
      intro custom
      rw [h, Option.filter_eq_none_iff]
      intro failure hfailure
      simp only [Option.map_map, Option.map_eq_some_iff] at hfailure
      obtain ⟨violation, hviolation, rfl⟩ := hfailure
      have hcode := Rule.code_of_password hviolation
      simp [Failure.isOfPassword, Failure.atField, Finding.toFailure, hcode]
    rw [hnone, hnone]

/-- A visit whose calls leave nothing to the custom policy finds the same under all of them. -/
theorem Visit.failures_eq_of_ignoresCustom {visit : Visit}
    (h : ∀ call ∈ visit.calls, call.IgnoresCustom) :
    visit.failures ⟨custom, unknownRules⟩ = visit.failures ⟨other, unknownRules⟩ := by
  refine List.filterMap_congr ?_
  intro call hcall
  rw [Settings.finding?_eq_of_ignoresCustom (h call hcall) custom other]

/-- **The custom policy has a say in password verdicts only.** Two validators with the same
configuration report of a record the same failures in the same order, but for those with the code
`password`. Both reports are what the visited fields find, one after another; and a visited field
finds the same for both, passwords included, if the options of each of its password rules are spoilt
or give every setting a value. -/
theorem Validator.custom_sways_passwords_only (config : Config)
    (custom other : Option Password.Policy) (r : Record) :
    let v : Validator := ⟨config, custom⟩
    let w : Validator := ⟨config, other⟩
    (v.validate r).report.failures.filter (!·.isOfPassword)
        = (w.validate r).report.failures.filter (!·.isOfPassword) ∧
      (∀ u : Validator,
        (u.validate r).report.failures = (r.visits []).flatMap (Visit.failures u.settings)) ∧
      ∀ visit ∈ r.visits [], (∀ call ∈ visit.calls, call.IgnoresCustom) →
        visit.failures v.settings = visit.failures w.settings := by
  intro v w
  refine ⟨?_, fun u => u.failures_validate r, ?_⟩
  · rw [failures_validate, failures_validate, Record.failures, Record.failures,
      List.filter_flatMap, List.filter_flatMap]
    refine List.flatMap_congr ?_
    intro visit _
    exact visit.filter_isOfPassword custom other config.unknownRules
  · intro visit _ h
    exact Visit.failures_eq_of_ignoresCustom custom other config.unknownRules h

/-- The pin gives every setting a value, so what it finds is the same under the relaxed policy and
under none. -/
theorem Validator.custom_sways_passwords_only_pin :
    let options := "require_digits=1,require_special_chars=0,require_lowercase=0,"
      ++ "min_length=4,require_uppercase=f"
    let pin : Field :=
      ⟨"pin", .present (.text "abcd"), "password=" ++ options, none⟩
    let card : Record := ⟨"Card", [⟨"owner", .text "", "required,password", none⟩, pin]⟩
    let v : Validator := ⟨.standard, some .relaxed⟩
    let w : Validator := ⟨.standard, none⟩
    ⟨[], pin⟩ ∈ card.visits [] ∧ (∀ call ∈ pin.calls, call.IgnoresCustom) ∧
      Visit.failures v.settings ⟨[], pin⟩ = Visit.failures w.settings ⟨[], pin⟩ := by
  intro options pin card v w
  have hcalls : pin.calls = [⟨"password", options⟩] := by decide +kernel
  have hignores : ∀ call ∈ pin.calls, call.IgnoresCustom := by
    rw [hcalls]
    intro call hcall
    obtain rfl := List.mem_singleton.1 hcall
    exact fun _ => .inr (by decide +kernel)
  have hvisit : ⟨[], pin⟩ ∈ card.visits [] := card.mem_visits_of_mem (by simp [card]) []
  have h := Validator.custom_sways_passwords_only .standard (some .relaxed) none card
  exact ⟨hvisit, hignores, h.2.2 _ hvisit hignores⟩

end RecordRules
