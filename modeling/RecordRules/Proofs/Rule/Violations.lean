/-
What rules can find.

The rules that look through optionals find something in what is held, and if they tell a kind, it is
the kind of what is held. Only `required` finds anything in a value as a whole.

* **`Rule.ofHeld_of_heldViolation?`** — what a rule can find in what is held;
* **`Rule.violation?_cases`** — what a rule can find in a value;
* **`Violation.OfHeld.kind_eq`**, **`Violation.OfHeld.code_ne_required`** — what is found in what is
  held tells no other kind, and does not have the code of `required`.
-/
import RecordRules.Rule

namespace RecordRules

/-- What rules can find in a value that no optional is around. -/
inductive Violation.OfHeld (w : Value) : Violation → Prop where
  | tooShort (min : UInt64) (actual : Nat) : OfHeld w (.tooShort min actual)
  | tooLong (max : UInt64) (actual : Nat) : OfHeld w (.tooLong max actual)
  | notEmail : OfHeld w .notEmail
  | weakPassword (weakness : Password.Weakness) : OfHeld w (.weakPassword weakness)
  | unsupported (rule : Selective) : OfHeld w (.unsupported rule w.kind)
  | passwordKind : OfHeld w (.passwordKind w.kind)

namespace Rule

variable {rule : Rule} {v w : Value} {violation : Violation}

theorem ofHeld_of_lengthViolation? {label : Selective} {bad : Nat → Option Violation}
    (hbad : ∀ n, ∀ violation ∈ bad n, violation.OfHeld w)
    (h : lengthViolation? label bad w = some violation) : violation.OfHeld w := by
  unfold lengthViolation? at h
  cases hlength : measure? w with
  | some n =>
    rw [hlength] at h
    exact hbad n violation h
  | none =>
    rw [hlength] at h
    cases h
    exact .unsupported label

theorem ofHeld_of_heldViolation? (h : rule.heldViolation? w = some violation) :
    violation.OfHeld w := by
  cases rule with
  | required => cases h
  | minLength n =>
    refine ofHeld_of_lengthViolation? ?_ h
    intro k violation hviolation
    obtain ⟨-, ⟨⟩⟩ := Option.ite_none_right_eq_some.1 hviolation
    exact .tooShort n k
  | maxLength n =>
    refine ofHeld_of_lengthViolation? ?_ h
    intro k violation hviolation
    obtain ⟨-, ⟨⟩⟩ := Option.ite_none_right_eq_some.1 hviolation
    exact .tooLong n k
  | email =>
    cases w with
    | text s =>
      obtain ⟨-, ⟨⟩⟩ := Option.ite_none_left_eq_some.1 h
      exact .notEmail
    | int | uint | float | bool | sequence | mapping | absent | present | record =>
      cases h
      exact .unsupported .email
  | password p =>
    cases w with
    | text s =>
      obtain ⟨weakness, -, rfl⟩ := Option.map_eq_some_iff.1 h
      exact .weakPassword weakness
    | int | uint | float | bool | sequence | mapping | absent | present | record =>
      cases h
      exact .passwordKind

/-- What is found in a value is either that it is zero, by `required`, or something in what it holds,
by another rule. -/
theorem violation?_cases (h : rule.violation? v = some violation) :
    (rule = required ∧ v.isZero = true ∧ violation = .missing v.kind) ∨
      (rule ≠ required ∧ ∃ w, v.held? = some w ∧ violation.OfHeld w) := by
  by_cases hrule : rule = required
  · subst hrule
    rw [violation?_required, Option.ite_none_right_eq_some, Option.some.injEq] at h
    exact .inl ⟨rfl, h.1, h.2.symm⟩
  · rw [violation?_of_ne_required hrule] at h
    obtain ⟨w, hw, h⟩ := Option.bind_eq_some_iff.1 h
    exact .inr ⟨hrule, w, hw, ofHeld_of_heldViolation? h⟩

theorem violation?_required_eq_none_iff : required.violation? v = none ↔ v.isZero = false := by
  rw [violation?_required]
  cases v.isZero <;> simp

end Rule

/-! ### What is told -/

namespace Violation

/-- The kind that a violation is about, if it is about one. -/
def kind? : Violation → Option Kind
  | missing kind | unsupported _ kind | passwordKind kind => some kind
  | tooShort .. | tooLong .. | notEmail | weakPassword _ => none

theorem param?_kind (violation : Violation) :
    violation.toFailure.param? "kind" = violation.kind?.map Kind.name := by
  cases violation with
  | weakPassword w => cases w <;> rfl
  | missing | tooShort | tooLong | notEmail | unsupported | passwordKind => rfl

variable {violation : Violation} {w : Value}

theorem OfHeld.kind_eq (h : violation.OfHeld w) : ∀ kind ∈ violation.kind?, kind = w.kind := by
  cases h with
  | tooShort | tooLong | notEmail | weakPassword => rintro kind ⟨⟩
  | unsupported | passwordKind =>
    rintro kind ⟨⟩
    rfl

theorem OfHeld.code_ne_required (h : violation.OfHeld w) :
    violation.toFailure.code ≠ "required" := by
  cases h with
  | weakPassword weakness => cases weakness <;> exact ne_of_beq_false rfl
  | tooShort | tooLong | notEmail | unsupported | passwordKind => exact ne_of_beq_false rfl

end Violation

theorem Kind.name_ne_optional {kind : Kind} (h : kind ≠ .optional) : kind.name ≠ "optional" := by
  cases kind with
  | optional => exact absurd rfl h
  | string | int | uint | float | bool | sequence | mapping | record => exact ne_of_beq_false rfl

end RecordRules
