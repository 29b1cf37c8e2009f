/-
Ignoring unknown rule names is a pure filter.

A call whose name no rule has is the only thing that two validators judge differently when one of
them rejects unknown names and the other ignores them. Its failure has a code of its own, which no
rule and no bad options use, so the failures with that code can be told from all others.

* **`Spec.Call.ruleName?_eq_none_iff`** — an unknown name is the name of no rule;
* **`Settings.finding?_ignore`** — a check that ignores unknown names finds what one that rejects
  them finds, unless that has the code of unknown names;
* **`Settings.filter_finding?_reject`** — and what has that code is found for unknown names only;
* **`Validator.ignoring_filters_rejecting`** — so ignoring drops the failures of unknown names, one
  for each call with such a name, and nothing else.
-/
import RecordRules.Proofs.Pass.Enumeration
import RecordRules.Proofs.Spec.Foresight

namespace RecordRules

/-! ### Unknown names -/

/-- The names of all rules, as rule texts write them. -/
def RuleName.texts : List String := all.map text

/-- Whether a failure has the code of unknown rule names. -/
def Failure.isOfUnknownRule (f : Failure) : Bool := f.code = "unknown_rule"

/-- The failure of an unknown rule name in a visited field. -/
def Visit.unknownRule (visit : Visit) (name : String) : Failure where
  code := "unknown_rule"
  message := "unknown validation rule: " ++ name
  field := some visit.path
  params := [("rule", name)]

theorem RuleName.mem_texts_iff {s : String} : s ∈ texts ↔ ∃ name : RuleName, name.text = s := by
  rw [texts, List.mem_map]
  constructor
  · rintro ⟨name, -, hname⟩
    exact ⟨name, hname⟩
  · rintro ⟨name, hname⟩
    exact ⟨name, by cases name <;> simp [all], hname⟩

namespace Spec

variable {c : Call} {custom : Option Password.Policy}

theorem Call.ruleName?_eq_none_iff : c.ruleName? = none ↔ c.name ∉ RuleName.texts := by
  rw [ruleName?, RuleName.ofText?_eq_none_iff, RuleName.mem_texts_iff, not_exists]

theorem Call.name_mem_of_rule_eq_ok {rule : Rule} (h : c.rule custom = .ok rule) :
    c.name ∈ RuleName.texts := by
  by_contra hname
  have hsome := ruleName?_of_rule_eq_ok h
  rw [ruleName?_eq_none_iff.2 hname] at hsome
  cases hsome

theorem Call.name_mem_of_badOptions {rule : RuleName} {options : String}
    (h : c.rule custom = .error (.badOptions rule options)) : c.name ∈ RuleName.texts := by
  by_contra hname
  have hunknown : c.rule custom = .error (.unknownRule c.name) :=
    rule_eq_unknownRule_iff.2 ⟨ruleName?_eq_none_iff.2 hname, rfl⟩
  rw [h] at hunknown
  cases hunknown

end Spec

/-- No rule uses the code of unknown names. -/
theorem Violation.isOfUnknownRule_toFailure (v : Violation) :
    v.toFailure.isOfUnknownRule = false := by
  have h := v.isOfProblem_toFailure
  rw [Failure.isOfProblem, Bool.or_eq_false_iff] at h
  exact h.1

/-! ### One check -/

namespace Settings

variable (custom : Option Password.Policy) (call : Spec.Call) (v : Value)

/-- Either a call has an unknown name, and nothing but that is found or ignored; or its name is
known, and what is found has another code and is the same whatever becomes of unknown names. -/
theorem finding?_name_cases :
    (call.name ∉ RuleName.texts ∧ finding? ⟨custom, .ignore⟩ call v = none ∧
        finding? ⟨custom, .reject⟩ call v = some (.problem (.unknownRule call.name))) ∨
      (call.name ∈ RuleName.texts ∧ ∃ found,
        (∀ unknownRules, finding? ⟨custom, unknownRules⟩ call v = found) ∧
          ∀ finding ∈ found, finding.toFailure.isOfUnknownRule = false) := by
  cases hrule : call.rule custom with
  | ok rule =>
    refine .inr ⟨Spec.Call.name_mem_of_rule_eq_ok hrule,
      (rule.violation? v).map .violation, fun _ => by simp only [finding?, hrule], ?_⟩
    intro finding hfinding
    obtain ⟨violation, -, rfl⟩ := Option.map_eq_some_iff.1 hfinding
    exact violation.isOfUnknownRule_toFailure
  | error problem =>
    cases problem with
    | unknownRule name =>
      obtain ⟨hname, rfl⟩ := Spec.Call.rule_eq_unknownRule_iff.1 hrule
      exact .inl ⟨Spec.Call.ruleName?_eq_none_iff.1 hname, by simp only [finding?, hrule],
        by simp only [finding?, hrule]⟩
    | badOptions rule options =>
      refine .inr ⟨Spec.Call.name_mem_of_badOptions hrule,
        some (.problem (.badOptions rule options)), fun _ => by simp only [finding?, hrule], ?_⟩
      rintro finding ⟨⟩
      rfl

/-- A check that ignores unknown names finds what one that rejects them finds, unless that has the
code of unknown names. -/
theorem finding?_ignore :
    finding? ⟨custom, .ignore⟩ call v
      = (finding? ⟨custom, .reject⟩ call v).filter (!·.toFailure.isOfUnknownRule) := by
  rcases finding?_name_cases custom call v with ⟨-, hignore, hreject⟩ | ⟨-, found, h, hcode⟩
  · rw [hignore, hreject]
    rfl
  · rw [h, h]
    cases found with
    | none => rfl
    | some finding =>
      have hother := hcode finding rfl
      simp [Option.filter_some, hother]

/-- Where unknown names are rejected, what has their code is found for them and for nothing else. -/
theorem filter_finding?_reject :
    (finding? ⟨custom, .reject⟩ call v).filter (·.toFailure.isOfUnknownRule)
      = if call.name ∉ RuleName.texts then some (.problem (.unknownRule call.name)) else none := by
  rcases finding?_name_cases custom call v with ⟨hname, -, hreject⟩ | ⟨hname, found, h, hcode⟩
  · rw [hreject, if_pos hname]
    rfl
  · rw [h, if_neg (not_not.2 hname), Option.filter_eq_none_iff]
    intro finding hf
    simp [hcode finding hf]

end Settings

/-! ### Visits and validations -/

variable (custom : Option Password.Policy)

/-- The failures of a visit that have some code are those of its findings that have it. -/
theorem Visit.filter_failures (s : Settings) (visit : Visit) (p : Failure → Bool)
    (hpath : ∀ failure path, p (failure.atField path) = p failure) :
    (visit.failures s).filter p
      = visit.calls.filterMap fun call =>
          ((s.finding? call visit.field.value).filter fun finding => p finding.toFailure).map
            fun finding => finding.toFailure.atField visit.path := by
  unfold Visit.failures
  rw [List.filter_filterMap]
  refine List.filterMap_congr ?_
  intro call _
  cases s.finding? call visit.field.value with
  | none => rfl
  | some finding => cases h : p finding.toFailure <;> simp [Option.filter, hpath, h]

theorem Visit.failures_ignore (visit : Visit) :
    visit.failures ⟨custom, .ignore⟩
      = (visit.failures ⟨custom, .reject⟩).filter (!·.isOfUnknownRule) := by
  rw [visit.filter_failures _ _ fun _ _ => rfl]
  refine List.filterMap_congr ?_
  intro call _
  rw [Settings.finding?_ignore]

theorem Visit.filter_failures_reject (visit : Visit) :
    (visit.failures ⟨custom, .reject⟩).filter (·.isOfUnknownRule)
      = (visit.calls.filter fun call => call.name ∉ RuleName.texts).map fun call =>
          visit.unknownRule call.name := by
  rw [visit.filter_failures _ _ fun _ _ => rfl, ← List.filterMap_eq_map, List.filterMap_filter]
  refine List.filterMap_congr ?_
  intro call _
  rw [Settings.filter_finding?_reject]
  by_cases hname : call.name ∉ RuleName.texts
  · rw [if_pos hname, if_pos (decide_eq_true hname)]
    rfl
  · rw [if_neg hname, if_neg (by simpa using hname)]
    rfl

/-- **Ignoring unknown rule names is a pure filter.** Of two validators that differ in what becomes
of unknown names alone, the one that ignores them reports what the other reports, in the same order,
without the failures that have the code of unknown names. And those are one for each call of a
visited field whose name is the name of no rule, in the order of the visits and of the calls, with
that name and with the path of the field. -/
theorem Validator.ignoring_filters_rejecting (config : Config) (r : Record) :
    let ignoring : Validator := ⟨config.withUnknownRules .ignore, custom⟩
    let rejecting : Validator := ⟨config.withUnknownRules .reject, custom⟩
    (ignoring.validate r).report.failures
        = (rejecting.validate r).report.failures.filter (!·.isOfUnknownRule) ∧
      (rejecting.validate r).report.failures.filter (·.isOfUnknownRule)
        = (r.visits []).flatMap fun visit =>
            (visit.calls.filter fun call => call.name ∉ RuleName.texts).map fun call =>
              visit.unknownRule call.name := by
  intro ignoring rejecting
  rw [failures_validate, failures_validate, Record.failures, Record.failures, List.filter_flatMap,
    List.filter_flatMap]
  refine ⟨?_, ?_⟩
  · refine List.flatMap_congr ?_
    intro visit _
    exact visit.failures_ignore custom
  · refine List.flatMap_congr ?_
    intro visit _
    exact visit.filter_failures_reject custom

end RecordRules
