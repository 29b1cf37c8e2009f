/-
Rules and their violations.

A rule looks at one value and either passes it or names one violation. Apart from `required`, the
rules look through present optionals and pass whatever is absent; `required` fails on the zero value
of any kind. In rule texts each rule has a name.

* **`RuleName.ofText?_eq_some_iff`**, **`RuleName.ofText?_eq_none_iff`** — a text names a rule
  exactly when it is that rule's name, and none when it is no rule's name;
* **`violation?_of_present`** — every other rule treats a present optional as what it holds;
* **`violation?_of_held?_eq_none`** — and passes what is absent.
-/
import RecordRules.Email
import RecordRules.Failure
import RecordRules.Password.Policy
import RecordRules.Value

namespace RecordRules

/-! ### Names -/

/-- The rules that a rule text can name. -/
inductive RuleName where
  | required
  | email
  | minLength
  | maxLength
  | password
  deriving DecidableEq, Repr

namespace RuleName

/-- All rule names. -/
def all : List RuleName := [required, email, minLength, maxLength, password]

/-- A rule's name in rule texts. -/
def text : RuleName → String
  | required => "required"
  | email => "email"
  | minLength => "min_length"
  | maxLength => "max_length"
  | password => "password"

/-- The rule that a text names. -/
def ofText? (s : String) : Option RuleName := all.find? fun name => name.text = s

@[simp] theorem ofText?_text (name : RuleName) : ofText? name.text = some name := by
  cases name <;> decide

theorem ofText?_eq_some_iff {s : String} {name : RuleName} :
    ofText? s = some name ↔ name.text = s :=
  Options.find?_key_eq_some_iff ofText?_text

theorem ofText?_eq_none_iff {s : String} : ofText? s = none ↔ ∀ name : RuleName, name.text ≠ s := by
  simp only [Option.eq_none_iff_forall_ne_some, ne_eq, ofText?_eq_some_iff]

end RuleName

/-! ### Rules -/

/-- A rule with its options. -/
inductive Rule where
  | required
  | email
  | minLength (n : UInt64)
  | maxLength (n : UInt64)
  | password (p : Password.Policy)
  deriving DecidableEq, Repr

/-- The rules that can only look into some kinds of values. -/
inductive Selective where
  | email
  | minLength
  | maxLength
  deriving DecidableEq, Repr

/-- The word for such a rule in messages. -/
def Selective.label : Selective → String
  | .email => "Email"
  | .minLength => "MinLength"
  | .maxLength => "MaxLength"

/-- What a rule finds wrong with a value. -/
inductive Violation where
  | missing (kind : Kind)
  | tooShort (min : UInt64) (actual : Nat)
  | tooLong (max : UInt64) (actual : Nat)
  | notEmail
  | unsupported (rule : Selective) (kind : Kind)
  | weakPassword (w : Password.Weakness)
  | passwordKind (kind : Kind)
  deriving DecidableEq, Repr

namespace Violation

/-- What is said of a missing value: texts and collections are empty, optionals absent, all other
values zero. -/
def missingMessage : Kind → String
  | .string | .sequence | .mapping => "field is required and must not be empty"
  | .optional => "field is required and must not be nil"
  | _ => "field is required and must not be zero value"

/-- The failure of a violation. -/
def toFailure : Violation → Failure
  | missing kind => Failure.of "required" (missingMessage kind) |>.withParam "kind" kind.name
  | tooShort min actual => Failure.tooShort min actual
  | tooLong max actual => Failure.tooLong max actual
  | notEmail => Failure.of "email" "field must be a valid email address"
  | unsupported rule kind => Failure.unsupportedKind rule.label kind.name
  | weakPassword w => w.toFailure
  | passwordKind kind =>
    Failure.of "password" "invalid field type for password validation"
      |>.withParam "kind" kind.name

end Violation

namespace Rule

/-- The name of a rule. -/
def name : Rule → RuleName
  | required => .required
  | email => .email
  | minLength _ => .minLength
  | maxLength _ => .maxLength
  | password _ => .password

/-- The number of characters of a text or of elements of a sequence. -/
def measure? : Value → Option Nat
  | .text s => some s.toList.length
  | .sequence size => some size.toNat
  | _ => none

/-- What a length rule finds: nothing on a value without a length but that. -/
def lengthViolation? (rule : Selective) (bad : Nat → Option Violation) (v : Value) :
    Option Violation :=
  match measure? v with
  | some actual => bad actual
  | none => some (.unsupported rule v.kind)

/-- What a rule finds wrong with a value that is no optional. -/
def heldViolation? : Rule → Value → Option Violation
  | required, _ => none
  | email, .text s => if Email.isAddress s.toList then none else some .notEmail
  | email, v => some (.unsupported .email v.kind)
  | minLength n, v =>
    lengthViolation? .minLength (fun k => if k < n.toNat then some (.tooShort n k) else none) v
  | maxLength n, v =>
    lengthViolation? .maxLength (fun k => if n.toNat < k then some (.tooLong n k) else none) v
  | password p, .text s => (p.weakness? s).map .weakPassword
  | password _, v => some (.passwordKind v.kind)

/-- What a rule finds wrong with a value. -/
def violation? : Rule → Value → Option Violation
  -- a present optional is no zero value, whatever it holds
  | required, v => if v.isZero then some (.missing v.kind) else none
  | rule, v => v.held?.bind rule.heldViolation?

/-- The failure that a rule finds in a value. -/
def failure? (rule : Rule) (v : Value) : Option Failure :=
  (rule.violation? v).map Violation.toFailure

/-! ### Looking through optionals -/

theorem violation?_of_ne_required {rule : Rule} (h : rule ≠ required) (v : Value) :
    rule.violation? v = v.held?.bind rule.heldViolation? := by
  cases rule <;> first | rfl | exact absurd rfl h

theorem violation?_of_present {rule : Rule} (h : rule ≠ required) (v : Value) :
    rule.violation? (.present v) = rule.violation? v := by
  rw [violation?_of_ne_required h, violation?_of_ne_required h, Value.held?_of_present]

theorem violation?_of_held?_eq_none {rule : Rule} (h : rule ≠ required) {v : Value}
    (hv : v.held? = none) : rule.violation? v = none := by
  rw [violation?_of_ne_required h, hv]; rfl

theorem violation?_required (v : Value) :
    required.violation? v = if v.isZero then some (.missing v.kind) else none := rfl

end Rule

end RecordRules
