/-
The two length rules, side by side.

One asks for at least so many characters or elements and the other for at most so many; in all else
they are one rule with two sets of words.

* **`Value.HasLength`** — what the rules measure, under any number of present optionals;
* **`LengthRule.Breaks`** — when a length breaks a bound;
* **`LengthRule.breach`**, **`LengthRule.unsupported`**, **`LengthRule.invalid`** — the failures of
  a length that breaks a bound, of a value without a length and of a bound that cannot be read.
-/
import RecordRules.Rule

namespace RecordRules

/-- Texts have the number of their characters as length, and sequences that of their elements. A
present optional has the length of what it holds. -/
inductive Value.HasLength : Value → Nat → Prop where
  | text (s : String) : HasLength (.text s) s.toList.length
  | sequence (size : UInt64) : HasLength (.sequence size) size.toNat
  | present {v : Value} {n : Nat} (h : HasLength v n) : HasLength (.present v) n

/-- The rules that bound a length, from below and from above. -/
inductive LengthRule where
  | min
  | max
  deriving DecidableEq, Repr

namespace LengthRule

/-- The name of a length rule in rule texts. -/
def word : LengthRule → String
  | min => "min_length"
  | max => "max_length"

/-- A length rule among the names of all rules. -/
def name : LengthRule → RuleName
  | min => .minLength
  | max => .maxLength

/-- The word for a length rule where values have no length. -/
def label : LengthRule → String
  | min => "MinLength"
  | max => "MaxLength"

/-- The parameter that carries the bound. -/
def boundKey : LengthRule → String
  | min => "min"
  | max => "max"

/-- The rule with a bound. -/
def rule : LengthRule → UInt64 → Rule
  | min => .minLength
  | max => .maxLength

/-- Whether a length breaks a bound. -/
def Breaks : LengthRule → (bound actual : Nat) → Prop
  | min, bound, actual => actual < bound
  | max, bound, actual => bound < actual

instance (r : LengthRule) (bound actual : Nat) : Decidable (r.Breaks bound actual) :=
  match r with
  | min => inferInstanceAs (Decidable (actual < bound))
  | max => inferInstanceAs (Decidable (bound < actual))

/-- The failure of a length that breaks a bound. -/
def breach (r : LengthRule) (field : String) (bound actual : Nat) : Failure where
  code := r.word
  message := match r with
    | min => "field must have a minimum length of " ++ bound.repr ++ " characters"
    | max => "field must have a maximum length of " ++ bound.repr ++ " characters"
  field := some field
  params := [(r.boundKey, bound.repr), ("actual", actual.repr)]

/-- The failure of a value without a length. -/
def unsupported (r : LengthRule) (field : String) (kind : Kind) : Failure where
  code := "unsupported_type"
  message := "unsupported type for " ++ r.label ++ " validation: " ++ kind.name
  field := some field
  params := [("rule", r.label), ("kind", kind.name)]

/-- The failure of a bound that cannot be read. -/
def invalid (r : LengthRule) (field options : String) : Failure where
  code := "invalid_options"
  message := "invalid " ++ r.word ++ " options: " ++ options
  field := some field
  params := [("rule", r.word), ("options", options)]

end LengthRule

end RecordRules
