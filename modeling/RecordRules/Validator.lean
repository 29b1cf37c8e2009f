/-
Validators.

A validator has the configuration that it was built from and, apart from it, the custom password
policy of the moment. The policy can be set and cleared at any time; the configuration stays.

A session is a list of actions on one validator. Each gives a reply: what was logged, and the
outcome where the action was a validation.

* **`config_setPolicy`**, **`config_clearPolicy`** — the policy of the moment does not touch the
  configuration;
* **`report_validate`** — an outcome reports what its walk reports;
* **`validate_eq_ok_iff`** — a record is valid exactly when its walk reports nothing;
* **`policyAfter`** — the custom policy after some actions, read off the actions alone;
* **`after`** — the validator after some actions.
-/
import RecordRules.Pass.Round

namespace RecordRules

/-- A configuration and the custom password policy of the moment. -/
structure Validator where
  config : Config
  custom : Option Password.Policy
  deriving DecidableEq, Repr

namespace Validator

/-- The validator that a configuration describes. It starts with the configuration's policy. -/
def ofConfig (config : Config) : Validator := ⟨config, config.password⟩

/-- The validator of the standard configuration. -/
def standard : Validator := ofConfig .standard

/-- Sets the custom password policy. -/
def setPolicy (v : Validator) (policy : Password.Policy) : Validator :=
  { v with custom := some policy }

/-- Drops the custom password policy. -/
def clearPolicy (v : Validator) : Validator := { v with custom := none }

/-- What checks depend on. -/
def settings (v : Validator) : Settings := ⟨v.custom, v.config.unknownRules⟩

/-- The walk of a record, scheduled as configured. -/
def walk (v : Validator) (r : Record) : Pass :=
  match v.config.fanOut with
  | .parallel => v.settings.walkAtOnce r
  | .sequential => v.settings.walk r

/-- A walk between the first and the last event of a validation. -/
def framed (typeName : String) (walk : Pass) : Pass :=
  .logged [.started typeName] ++ walk ++ .logged [.finished walk.report.size]

/-- The validation of a record, from the first event to the last. -/
def pass (v : Validator) (r : Record) : Pass := framed r.typeName (v.walk r)

/-- The failure of a value that is no record. -/
def notRecord (kind : Kind) : Failure :=
  Failure.of "unsupported_type" ("unsupported type for validation: " ++ kind.name)
    |>.withParam "kind" kind.name

/-- The validation of a value. Only records can be validated. -/
def passValue (v : Validator) : Value → Pass
  | .record r => v.pass r
  | value => ⟨[], .singleton (notRecord value.kind)⟩

/-- The outcome of a validation: success, or a report that is not empty. -/
abbrev Outcome := Except Report Unit

/-- What an outcome reports: nothing, if it is a success. -/
def Outcome.report : Outcome → Report
  | .ok () => ∅
  | .error report => report

/-- The outcome for a record. -/
def validate (v : Validator) (r : Record) : Outcome := (v.pass r).report.toExcept

/-- The outcome for a value. -/
def validateValue (v : Validator) (value : Value) : Outcome := (v.passValue value).report.toExcept

/-! ### Policy and configuration -/

variable (v : Validator)

@[simp] theorem config_setPolicy (policy : Password.Policy) :
    (v.setPolicy policy).config = v.config := rfl

@[simp] theorem config_clearPolicy : v.clearPolicy.config = v.config := rfl

@[simp] theorem report_pass (r : Record) : (v.pass r).report = (v.walk r).report := by
  simp [pass, framed]

theorem report_toExcept (report : Report) : Outcome.report report.toExcept = report := by
  obtain ⟨failures⟩ := report
  cases failures <;> rfl

@[simp] theorem report_validate (r : Record) : (v.validate r).report = (v.walk r).report := by
  rw [validate, report_toExcept, report_pass]

theorem validate_eq_ok_iff (r : Record) : v.validate r = .ok () ↔ (v.walk r).report = ∅ := by
  rw [validate, Report.toExcept_eq_ok_iff, report_pass]

/-! ### Sessions -/

/-- Something that is done with a validator. -/
inductive Action where
  | setPolicy (policy : Password.Policy)
  | clearPolicy
  | validate (value : Value)

/-- What an action logs, its outcome if it is a validation, and the validator after it. -/
structure Reply where
  log : List Event
  outcome : Option Outcome
  after : Validator

/-- The reply to a validation, which leaves the validator as it is. -/
def Reply.ofPass (v : Validator) (p : Pass) : Reply := ⟨p.log, some p.report.toExcept, v⟩

/-- Does one thing with a validator. -/
def act (v : Validator) : Action → Reply
  | .setPolicy policy => ⟨[.policySet policy], none, v.setPolicy policy⟩
  | .clearPolicy => ⟨[], none, v.clearPolicy⟩
  | .validate value => .ofPass v (v.passValue value)

/-- Does one thing after another, and keeps every reply. -/
def run (v : Validator) : List Action → List Reply
  | [] => []
  | action :: rest => v.act action :: (v.act action).after.run rest

/-- The validator after some actions. -/
def after (v : Validator) (actions : List Action) : Validator :=
  actions.foldl (fun v action => (v.act action).after) v

/-! ### Actions without a validator -/

/-- What an action makes of the custom policy: another one, none, or nothing new. -/
def Action.written? : Action → Option (Option Password.Policy)
  | .setPolicy policy => some (some policy)
  | .clearPolicy => some none
  | .validate _ => none

/-- The value that an action validates. -/
def Action.validated? : Action → Option Value
  | .setPolicy _ | .clearPolicy => none
  | .validate value => some value

/-- The custom policy after some actions: the one that the last of them to set or clear it has left,
and the initial one where none of them does either. -/
def policyAfter (initial : Option Password.Policy) (actions : List Action) :
    Option Password.Policy :=
  (actions.filterMap Action.written?).getLast?.getD initial

/-! ### One action -/

@[simp] theorem after_act_validate (v : Validator) (value : Value) :
    (v.act (.validate value)).after = v := rfl

@[simp] theorem config_after_act (v : Validator) (action : Action) :
    (v.act action).after.config = v.config := by
  cases action <;> rfl

end Validator

end RecordRules
