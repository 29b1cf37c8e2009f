/-
What a policy requires of a password.

Every setting of a policy is a requirement, and they are checked in the order of the settings: the
length, then the classes digit, uppercase, lowercase and special. A class that the policy does not
ask for is met by every password.

* **`Policy.Meets`** — whether a password meets a requirement;
* **`Policy.unmet?`** — the first requirement that it does not meet;
* **`Policy.complaint`** — the failure that names a requirement.
-/
import RecordRules.Failure
import RecordRules.Password.Policy
import RecordRules.Text.Ascii

namespace RecordRules.Password

namespace CharClass

/-- The characters of a class, one by one. -/
def chars : CharClass → List Char
  | digit => Text.digits
  | uppercase => Text.capitalLetters
  | lowercase => Text.smallLetters
  | special => specialChars.toList

/-- What a character of a class is called. -/
def noun : CharClass → String
  | digit => "digit"
  | uppercase => "uppercase letter"
  | lowercase => "lowercase letter"
  | special => "special character"

theorem has_iff {c : CharClass} {x : Char} : c.has x = true ↔ x ∈ c.chars := by
  cases c with
  | digit => exact Text.isDigit_iff
  | uppercase => exact Text.isUpper_iff
  | lowercase => exact Text.isLower_iff
  | special => exact List.contains_iff_mem

end CharClass

namespace Setting

/-- The word for a setting as a requirement. -/
def word : Setting → String
  | .minLength => "min_length"
  | .requires .digit => "digit"
  | .requires .uppercase => "uppercase"
  | .requires .lowercase => "lowercase"
  | .requires .special => "special"

/-- How many requirements are checked before this one. -/
def rank (s : Setting) : Nat := all.idxOf s

end Setting

namespace Policy

variable (p : Policy) (password : List Char)

/-- Whether a password meets a requirement: it has enough characters, or it has one of a class, if
the policy asks for the class. -/
def Meets : Setting → Prop
  | .minLength => p.minLength.toNat ≤ password.length
  | .requires c => p.requires c = true → ∃ x ∈ password, x ∈ c.chars

instance : DecidablePred (p.Meets password)
  | .minLength => inferInstanceAs (Decidable (_ ≤ _))
  | .requires c =>
    decidable_of_iff (p.requires c = true → (password.any c.chars.contains) = true)
      (by simp [Meets])

/-- The first requirement that a password does not meet. -/
def unmet? : Option Setting := Setting.all.find? fun s => ¬ p.Meets password s

/-- The failure of a password that does not meet a requirement. -/
def complaint (s : Setting) : Failure where
  code := "password"
  message := match s with
    | .minLength =>
      "password must have a minimum length of " ++ p.minLength.toNat.repr ++ " characters"
    | .requires c => "password must contain at least one " ++ c.noun
  field := none
  params := ("requirement", s.word) :: match s with
    | .minLength => [("min", p.minLength.toNat.repr), ("actual", password.length.repr)]
    | .requires _ => []

/-! ### The first unmet requirement -/

variable {p password} {s : Setting}

theorem unmet?_eq_none_iff : p.unmet? password = none ↔ ∀ s, p.Meets password s := by
  simp [unmet?, Setting.mem_all]

theorem unmet?_eq_some_iff :
    p.unmet? password = some s ↔
      ¬ p.Meets password s ∧ ∃ earlier later, Setting.all = earlier ++ s :: later ∧
        ∀ r ∈ earlier, p.Meets password r := by
  simp [unmet?, List.find?_eq_some_iff_append]

end Policy

end RecordRules.Password
