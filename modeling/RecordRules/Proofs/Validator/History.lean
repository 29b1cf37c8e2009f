/-
A validator remembers nothing but its custom policy.

The policy lives in two places, the configuration and the validator itself. Actions write only the
second, so the two part for good, and clearing it does not bring the configured one back.

* **`Validator.act_eq`** — one action: it replies as on a validator that is built with the custom
  policy, and leaves the configuration alone;
* **`Validator.after_eq`** — any number of actions leave the configuration alone, and the custom
  policy as it was last written;
* **`Validator.getElem?_run`** — the reply to an action is that of the validator after the actions
  before it;
* **`Validator.reply_eq_fresh`** — so every reply of a session is that of a new validator.
-/
import RecordRules.Validator

namespace RecordRules.Validator

variable (v : Validator)

/-! ### One action -/

/-- What an action logs and finds is up to the custom policy and not to the configured one; what it
leaves of a validator is the configuration, and the custom policy if it writes none. -/
theorem act_eq (action : Action) :
    let fresh := ofConfig { v.config with password := v.custom }
    v.act action = {
      log := (fresh.act action).log
      outcome := action.validated?.map fresh.validateValue
      after := ⟨v.config, action.written?.getD v.custom⟩ } := by
  cases action with
  | setPolicy | clearPolicy => rfl
  | validate value => cases value <;> rfl

/-! ### Any number of actions -/

theorem policyAfter_singleton (initial : Option Password.Policy) (action : Action) :
    policyAfter initial [action] = action.written?.getD initial := by
  cases action <;> rfl

theorem policyAfter_append (initial : Option Password.Policy) (actions more : List Action) :
    policyAfter initial (actions ++ more) = policyAfter (policyAfter initial actions) more := by
  unfold policyAfter
  rw [List.filterMap_append, List.getLast?_append]
  cases (more.filterMap Action.written?).getLast? <;> rfl

/-- Clearing the policy does not bring the configured one back. -/
example (value : Value) :
    policyAfter (some .relaxed) [.setPolicy .standard, .validate value, .clearPolicy] = none := rfl

/-- After any actions the configuration is the first one, and the custom policy the last written. -/
theorem after_eq (actions : List Action) :
    v.after actions = ⟨v.config, policyAfter v.custom actions⟩ := by
  -- from left to right, so the validator before the first action varies
  induction actions generalizing v with
  | nil => rfl
  | cons action rest ih =>
    calc v.after (action :: rest)
        = (v.act action).after.after rest := rfl
      _ = ⟨v.config, policyAfter (action.written?.getD v.custom) rest⟩ := by rw [ih, act_eq]
      _ = ⟨v.config, policyAfter v.custom (action :: rest)⟩ := by
          rw [← policyAfter_singleton, ← policyAfter_append]
          rfl

/-! ### Replies -/

theorem run_append (actions more : List Action) :
    v.run (actions ++ more) = v.run actions ++ (v.after actions).run more := by
  induction actions generalizing v with
  | nil => rfl
  | cons action rest ih => exact congrArg _ (ih _)

theorem length_run (actions : List Action) : (v.run actions).length = actions.length := by
  induction actions generalizing v with
  | nil => rfl
  | cons action rest ih => exact congrArg (· + 1) (ih _)

/-- The reply to an action is that of the validator after the actions before it. -/
theorem getElem?_run (before later : List Action) (action : Action) :
    (v.run (before ++ action :: later))[before.length]? = some ((v.after before).act action) := by
  rw [run_append, ← v.length_run before, List.getElem?_append_right (Nat.le_refl _), Nat.sub_self]
  rfl

/-! ### Sessions -/

/-- **A validator remembers nothing but its custom policy.** Whatever a session has done before, an
action replies as on a new validator, whose configuration is the first one with the custom policy of
the moment: it logs the same, and if it is a validation, its outcome is the same, of a record as of
any other value. After it the configuration is still the first one, and the custom policy is the
last one set, or none if it was cleared since, or the configured one if it was neither set nor
cleared. -/
theorem reply_eq_fresh (config : Config) (before later : List Action) (action : Action) :
    let fresh := ofConfig { config with password := policyAfter config.password before }
    ((ofConfig config).run (before ++ action :: later))[before.length]?
        = some {
            log := (fresh.act action).log
            outcome := action.validated?.map fresh.validateValue
            after := ⟨config, policyAfter config.password (before ++ [action])⟩ } ∧
      ∀ r, fresh.validateValue (.record r) = fresh.validate r := by
  intro fresh
  refine ⟨?_, fun r => rfl⟩
  rw [getElem?_run, after_eq, act_eq, policyAfter_append, policyAfter_singleton]
  rfl

end RecordRules.Validator
