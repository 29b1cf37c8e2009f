/-
Checking one call against one value.

A call that asks for a rule puts the rule to the value. A problem of the call replaces the check and
is reported, except that names which no rule has can be ignored.

* **`report_check`** — a check reports at most one failure, that of its finding;
* **`failure?_of_rule_eq_ok`** — a call that asks for a rule fails as the rule does;
* **`exists_rule_of_finding?`** — a violation is found by the rule that the call asks for;
* **`finding?_congr_value`** — a check sees of a value what the rules find wrong with it.
-/
import RecordRules.Config
import RecordRules.Pass
import RecordRules.Spec.Call

namespace RecordRules

/-- What a check finds. -/
inductive Finding where
  | violation (v : Violation)
  /-- The call asks for no rule. -/
  | problem (p : Spec.Problem)
  deriving DecidableEq, Repr

def Finding.toFailure : Finding → Failure
  | violation v => v.toFailure
  | problem p => p.toFailure

/-- What checks depend on besides the call and the value. -/
structure Settings where
  custom : Option Password.Policy
  unknownRules : UnknownRules
  deriving DecidableEq, Repr

namespace Settings

/-- What the check of a call finds. -/
def finding? (s : Settings) (call : Spec.Call) (v : Value) : Option Finding :=
  match call.rule s.custom with
  | .ok rule => (rule.violation? v).map .violation
  -- only this problem can be ignored
  | .error (.unknownRule name) =>
    match s.unknownRules with
    | .ignore => none
    | .reject => some (.problem (.unknownRule name))
  | .error problem => some (.problem problem)

/-- The failure that the check of a call finds. -/
def failure? (s : Settings) (call : Spec.Call) (v : Value) : Option Failure :=
  (s.finding? call v).map Finding.toFailure

/-- What the check of a call logs. -/
def events (s : Settings) (call : Spec.Call) (v : Value) : List Event :=
  match call.ruleName? with
  | none =>
    match s.unknownRules with
    | .ignore => [.ignoring call.name]
    | .reject => []
  | some .password =>
    match Password.Policy.effective call.options s.custom with
    | .ok _ => [.dispatching .password v.kind]
    | .error bad => [.dispatching .password v.kind, .optionsRejected bad call.options]
  | some rule => [.dispatching rule v.kind]

/-- The check of a call of the field `name` with the value `v`. -/
def check (s : Settings) (name : String) (v : Value) (call : Spec.Call) : Pass where
  log := s.events call v
  report := .ofList ((s.finding? call v).toList.map fun f => f.toFailure.atField name)

theorem report_check (s : Settings) (name : String) (v : Value) (call : Spec.Call) :
    (s.check name v call).report.failures
      = (s.finding? call v).toList.map fun f => f.toFailure.atField name := rfl

/-- The check of a call that asks for a rule fails as the rule does. -/
theorem failure?_of_rule_eq_ok {s : Settings} {call : Spec.Call} {rule : Rule}
    (h : call.rule s.custom = .ok rule) (v : Value) :
    s.failure? call v = (rule.violation? v).map Violation.toFailure := by
  rw [failure?, finding?, h, Option.map_map]
  rfl

/-- A violation that a check finds is one of the rule that the call asks for. -/
theorem exists_rule_of_finding? {s : Settings} {call : Spec.Call} {v : Value}
    {violation : Violation} (h : s.finding? call v = some (.violation violation)) :
    ∃ rule, call.rule s.custom = .ok rule ∧ rule.violation? v = some violation := by
  unfold finding? at h
  cases hrule : call.rule s.custom with
  | ok rule =>
    rw [hrule] at h
    obtain ⟨found, hfound, ⟨⟩⟩ := Option.map_eq_some_iff.1 h
    exact ⟨rule, rfl, hfound⟩
  | error problem =>
    rw [hrule] at h
    cases problem with
    | unknownRule name => cases hunknown : s.unknownRules <;> rw [hunknown] at h <;> cases h
    | badOptions => cases h

theorem finding?_eq_none_iff {s : Settings} {call : Spec.Call} {rule : Rule}
    (h : call.rule s.custom = .ok rule) {v : Value} :
    s.finding? call v = none ↔ rule.violation? v = none := by
  rw [finding?, h, Option.map_eq_none_iff]

/-- A check sees of a value what the rules find wrong with it. -/
theorem finding?_congr_value {v w : Value} (h : ∀ rule : Rule, rule.violation? v = rule.violation? w)
    (s : Settings) (call : Spec.Call) : s.finding? call v = s.finding? call w := by
  unfold finding?
  cases call.rule s.custom with
  | ok rule => simp only [h]
  | error problem => cases problem <;> rfl

end Settings

end RecordRules
