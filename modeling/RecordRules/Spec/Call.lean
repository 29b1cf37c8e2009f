/-
Calls of rules, as rule texts write them.

A call has a name and options, both as written. It asks for a rule if the name is a rule's and the
rule can read the options; what stands in the way otherwise is a problem of the rule text, not of
any value.

* **`rule_eq_unknownRule_iff`** — a problem with the name is a name that no rule has;
* **`ruleName?_of_rule_eq_ok`** — the rule that a call asks for is the one it names;
* **`rule_cases`** — the custom policy has a say in password rules with readable options only.
-/
import RecordRules.Rule

namespace RecordRules.Spec

/-- What is wrong with a call. -/
inductive Problem where
  | unknownRule (name : String)
  | badOptions (rule : RuleName) (options : String)
  deriving DecidableEq, Repr

namespace Problem

/-- The code of a problem. -/
def code : Problem → String
  | unknownRule _ => "unknown_rule"
  | badOptions .. => "invalid_options"

/-- What is said of a problem. -/
def message : Problem → String
  | unknownRule name => "unknown validation rule: " ++ name
  | badOptions rule options => "invalid " ++ rule.text ++ " options: " ++ options

/-- A problem as a failure. -/
def toFailure (p : Problem) : Failure :=
  let failure := Failure.of p.code p.message
  match p with
  | unknownRule name => failure.withParam "rule" name
  | badOptions rule options =>
    failure.withParam "rule" rule.text |>.withParam "options" options

end Problem

/-- A rule's name and its options, as written. -/
structure Call where
  name : String
  options : String
  deriving DecidableEq, Repr

namespace Call

/-- The rule that a call names. -/
def ruleName? (c : Call) : Option RuleName := RuleName.ofText? c.name

/-- The options read as the bound of a length rule. -/
def lengthBound (c : Call) (rule : RuleName) : Except Problem UInt64 :=
  match Decimal.readSize? c.options.toList with
  | some n => .ok n
  | none => .error (.badOptions rule c.options)

/-- The rule that a call asks for under a custom password policy. -/
def rule (custom : Option Password.Policy) (c : Call) : Except Problem Rule :=
  match c.ruleName? with
  | none => .error (.unknownRule c.name)
  | some .required => .ok .required
  | some .email => .ok .email
  | some .minLength => (c.lengthBound .minLength).map .minLength
  | some .maxLength => (c.lengthBound .maxLength).map .maxLength
  | some .password =>
    match Password.Policy.effective c.options custom with
    | .ok policy => .ok (.password policy)
    | .error _ => .error (.badOptions .password c.options)

/-! ### Problems -/

variable {custom : Option Password.Policy} {c : Call}

theorem rule_eq_unknownRule_iff {name : String} :
    c.rule custom = .error (.unknownRule name) ↔ c.ruleName? = none ∧ name = c.name := by
  unfold rule lengthBound
  -- only a missing rule name makes a problem with the name; a known rule objects to its options
  cases c.ruleName? with
  | none => simp [eq_comm]
  | some known =>
    cases known with
    | required | email => simp
    | minLength | maxLength => cases Decimal.readSize? c.options.toList <;> simp [Except.map]
    | password => cases Password.Policy.effective c.options custom <;> simp

theorem ruleName?_of_rule_eq_ok {r : Rule} (h : c.rule custom = .ok r) :
    c.ruleName? = some r.name := by
  unfold rule lengthBound at h
  cases hn : c.ruleName? with
  | none => simp [hn] at h
  | some known =>
    rw [hn] at h
    cases known with
    | required | email => cases h; rfl
    | minLength | maxLength =>
      cases hs : Decimal.readSize? c.options.toList with
      | none => simp [hs, Except.map] at h
      | some n =>
        simp only [hs, Except.map, Except.ok.injEq] at h
        subst h; rfl
    | password =>
      cases hp : Password.Policy.effective c.options custom with
      | error _ => simp [hp] at h
      | ok p =>
        simp only [hp, Except.ok.injEq] at h
        subst h; rfl

/-- What the custom policy has a say in: either nothing at all, or a password rule whose policy is
the custom one, refined by the pairs of the options. -/
theorem rule_cases (c : Call) :
    (∃ result, ∀ custom, c.rule custom = result) ∨
      ∃ pairs, c.ruleName? = some .password ∧ Options.pairs c.options.toList = .ok pairs ∧
        ∀ custom, c.rule custom = .ok (.password ((custom.getD .standard).refine pairs)) := by
  unfold rule
  cases c.ruleName? with
  | none => exact .inl ⟨_, fun _ => rfl⟩
  | some known =>
    cases known with
    | required | email | minLength | maxLength => exact .inl ⟨_, fun _ => rfl⟩
    | password =>
      simp only [Password.Policy.effective_eq]
      cases Options.pairs c.options.toList with
      | error part => exact .inl ⟨_, fun _ => rfl⟩
      | ok pairs => exact .inr ⟨pairs, trivial, rfl, fun _ => rfl⟩

end Call

end RecordRules.Spec
