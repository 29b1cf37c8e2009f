/-
Checking a rule text in advance finds what validations would find.

A problem belongs to the rule text: no value and no custom password policy makes one or takes one
away. Violations have codes of their own, so they neither pass for problems nor hide any.

* **`Spec.Call.rule_eq_error_iff`** — under every custom policy a call has the same problem;
* **`Violation.isOfProblem_toFailure`** — no violation has the code of a problem;
* **`Settings.find?_failures`** — among the failures of some calls, the first one of a problem is
  that of the first call which has one;
* **`Spec.checked_foretells`** — so a text that is accepted in advance never makes such a failure,
  and a text that is not makes exactly the one that was found.
-/
import RecordRules.Pass.Check
import RecordRules.Spec

namespace RecordRules

/-- Whether a failure has the code of a problem. -/
def Failure.isOfProblem (f : Failure) : Bool :=
  f.code = "unknown_rule" || f.code = "invalid_options"

/-! ### Problems belong to the text -/

namespace Spec

variable {c : Call} {p : Problem}

theorem Call.problem?_eq_some_iff : c.problem? = some p ↔ c.rule none = .error p := by
  unfold problem?
  cases c.rule none <;> simp

/-- A custom policy is refined by the options, so it has no say in whether they can be read. -/
theorem Call.rule_eq_error_congr (custom other : Option Password.Policy) :
    c.rule custom = .error p ↔ c.rule other = .error p := by
  rcases c.rule_cases with ⟨result, h⟩ | ⟨pairs, -, -, h⟩
  · rw [h, h]
  · simp [h]

theorem Call.rule_eq_error_iff {custom : Option Password.Policy} :
    c.rule custom = .error p ↔ c.problem? = some p := by
  rw [problem?_eq_some_iff]
  exact rule_eq_error_congr custom none

theorem Call.exists_rule_of_problem?_eq_none (h : c.problem? = none)
    (custom : Option Password.Policy) : ∃ r, c.rule custom = .ok r := by
  cases hrule : c.rule custom with
  | ok r => exact ⟨r, rfl⟩
  | error p =>
    rw [rule_eq_error_iff, h] at hrule
    cases hrule

theorem Problem.isOfProblem_toFailure (p : Problem) : p.toFailure.isOfProblem = true := by
  cases p <;> rfl

end Spec

/-! ### Codes of violations -/

theorem Violation.isOfProblem_toFailure (v : Violation) : v.toFailure.isOfProblem = false := by
  cases v with
  | missing | tooShort | tooLong | notEmail | unsupported | passwordKind => rfl
  | weakPassword w => cases w <;> rfl

/-! ### The checks of calls -/

namespace Settings

variable {s : Settings} {call : Spec.Call}

/-- The check of a call without a problem finds nothing but violations. -/
theorem isOfProblem_of_failure? (h : call.problem? = none) {v : Value} {failure : Failure}
    (hfailure : s.failure? call v = some failure) : failure.isOfProblem = false := by
  obtain ⟨r, hr⟩ := Spec.Call.exists_rule_of_problem?_eq_none h s.custom
  rw [failure?_of_rule_eq_ok hr, Option.map_eq_some_iff] at hfailure
  obtain ⟨violation, -, rfl⟩ := hfailure
  exact violation.isOfProblem_toFailure

/-- Where unknown names are rejected, a problem is found whatever the value. -/
theorem failure?_of_problem? {p : Spec.Problem} (h : call.problem? = some p)
    (hreject : s.unknownRules = .reject) (v : Value) : s.failure? call v = some p.toFailure := by
  have hrule : call.rule s.custom = .error p := Spec.Call.rule_eq_error_iff.2 h
  rw [failure?, finding?, hrule]
  cases p with
  | unknownRule name =>
    rw [hreject]
    rfl
  | badOptions => rfl

/-- Among the failures of some calls, the first one of a problem is that of the first call which has
one: what other rules find before it does not hide it. -/
theorem find?_failures (hreject : s.unknownRules = .reject) (calls : List Spec.Call) (v : Value) :
    (calls.filterMap (s.failure? · v)).find? Failure.isOfProblem
      = (calls.findSome? Spec.Call.problem?).map Spec.Problem.toFailure := by
  induction calls with
  | nil => rfl
  | cons call calls ih =>
    cases hp : call.problem? with
    | some p =>
      have hfailure := failure?_of_problem? hp hreject v
      simp only [List.filterMap_cons, List.findSome?_cons, hfailure, hp]
      exact List.find?_cons_of_pos p.isOfProblem_toFailure
    | none =>
      cases hfailure : s.failure? call v with
      | none => simpa only [List.filterMap_cons, List.findSome?_cons, hfailure, hp] using ih
      | some failure =>
        have hcode := isOfProblem_of_failure? hp hfailure
        simp only [List.filterMap_cons, List.findSome?_cons, hfailure, hp]
        rw [List.find?_cons_of_neg (by simp [hcode]), ih]

end Settings

/-! ### Rule texts -/

namespace Spec

theorem checked_eq_error_iff {text : String} {p : Problem} :
    checked text = .error p ↔ (ofText text).calls.findSome? Call.problem? = some p := by
  unfold checked
  cases (ofText text).calls.findSome? Call.problem? <;> simp

/-- **Checking in advance foretells problems.** A text that is accepted is read as ever, and no call
of it fails with a problem's code, whatever the value and the settings. A text that is not accepted
has, whatever the value and the custom policy, a call that fails so where unknown names are
rejected; and the first such failure is that of the problem which was found. -/
theorem checked_foretells (text : String) :
    (∀ spec, checked text = .ok spec → spec = ofText text ∧
      ∀ (s : Settings) (v : Value), ∀ call ∈ spec.calls,
        ∀ failure, s.failure? call v = some failure → failure.isOfProblem = false) ∧
      ∀ problem, checked text = .error problem → ∀ (custom : Option Password.Policy) (v : Value),
        ((ofText text).calls.filterMap fun call =>
          Settings.failure? ⟨custom, .reject⟩ call v).find? Failure.isOfProblem
            = some problem.toFailure := by
  refine ⟨?_, ?_⟩
  · intro spec h
    obtain ⟨hspec, hnone⟩ := checked_eq_ok_iff.1 h
    refine ⟨hspec, ?_⟩
    intro s v call hcall failure hfailure
    exact Settings.isOfProblem_of_failure? (hnone call hcall) hfailure
  · intro problem h custom v
    rw [Settings.find?_failures rfl, checked_eq_error_iff.1 h]
    rfl

/-- The missing text fails `required` first, and the misspelt name is found all the same. -/
theorem checked_foretells_misspelt :
    (checked "required,email" = .ok ⟨[⟨"required", ""⟩, ⟨"email", ""⟩]⟩ ∧
      ∀ failure, Settings.failure? ⟨none, .reject⟩ ⟨"required", ""⟩ (.text "") = some failure →
        failure.isOfProblem = false) ∧
      checked "required,requird,min_length=x" = .error (.unknownRule "requird") ∧
      ((ofText "required,requird,min_length=x").calls.filterMap fun call =>
        Settings.failure? ⟨some .relaxed, .reject⟩ call (.text "")).find? Failure.isOfProblem
          = some (Problem.unknownRule "requird").toFailure := by
  have hok : checked "required,email" = .ok ⟨[⟨"required", ""⟩, ⟨"email", ""⟩]⟩ :=
    checked_eq_ok_iff.2 (by decide +kernel)
  have herror : checked "required,requird,min_length=x" = .error (.unknownRule "requird") :=
    checked_eq_error_iff.2 (by decide +kernel)
  refine ⟨⟨hok, ?_⟩, herror, (checked_foretells _).2 _ herror (some .relaxed) (.text "")⟩
  exact ((checked_foretells _).1 _ hok).2 ⟨none, .reject⟩ (.text "") _ List.mem_cons_self

end Spec

end RecordRules
