/-
Which value of a setting counts.

An option list is seen here as the parts between its commas, whole and in their order. A part gives
a value to at most one setting: the one that has the part's key, if that setting can have the value.
Each setting has the last value that some part gives it, and that of the custom policy, or of the
standard one, where no part gives it any.

A policy is written as an option list with one part for each of its settings, in any order. The size
is a decimal numeral, and each truth value has one of its spellings.

* **`settle`** — the policy of some parts, said setting by setting;
* **`ext_value`** — a policy is its values;
* **`Spelling.read?_text`** — every setting is read back as it was written;
* **`Spelling.plain`** — every policy can be written.
-/
import RecordRules.Password.Policy

namespace RecordRules.Password

open Text

/-- The values of a setting: a size, or whether a class must occur. -/
abbrev Setting.Value : Setting → Type
  | .minLength => UInt64
  | .requires _ => Bool

namespace Setting

/-- Reads a value of a setting. -/
def read? : (s : Setting) → List Char → Option s.Value
  | .minLength, text => Decimal.readSize? text
  | .requires _, text => Options.readFlag? text

/-- The value that a part gives to a setting: what can be read after its first equals sign, where
the setting's key stands before it. Blanks around both do not count. -/
def given? (s : Setting) (part : List Char) : Option s.Value :=
  match cut '=' part with
  | some (key, value) => if String.ofList (trim key) = s.key then s.read? (trim value) else none
  | none => none

/-- The last value that some parts give to a setting. -/
def lastGiven? (s : Setting) (parts : List (List Char)) : Option s.Value :=
  (parts.filterMap s.given?).getLast?

end Setting

namespace Policy

/-- The value of a setting under a policy. -/
def value (p : Policy) : (s : Setting) → s.Value
  | .minLength => p.minLength
  | .requires c => p.requires c

/-- The policy with these values. -/
def ofValues (value : (s : Setting) → s.Value) : Policy where
  minLength := value .minLength
  digits := value (.requires .digit)
  uppercase := value (.requires .uppercase)
  lowercase := value (.requires .lowercase)
  special := value (.requires .special)

/-- Whether a part spoils its list: it is not blank and has no equals sign. -/
def isSpoilt (part : List Char) : Bool := trim part ≠ [] && '=' ∉ part

/-- The policy that some parts make of the custom policy, said setting by setting. -/
def settle (parts : List (List Char)) (custom : Option Policy) : Except BadOptions Policy :=
  match parts.find? isSpoilt with
  | some part => .error ⟨String.ofList (trim part)⟩
  | none => .ok (.ofValues fun s => (s.lastGiven? parts).getD ((custom.getD standard).value s))

/-! ### Policies by their values -/

@[simp] theorem value_ofValues (value : (s : Setting) → s.Value) (s : Setting) :
    (ofValues value).value s = value s := by
  rcases s with _ | c
  · rfl
  · cases c <;> rfl

theorem ext_value {p q : Policy} (h : ∀ s, p.value s = q.value s) : p = q :=
  ext_requires (h .minLength) fun c => h (.requires c)

theorem ofValues_value (p : Policy) : ofValues p.value = p := by
  refine ext_value ?_
  intro s
  rw [value_ofValues]

end Policy

/-! ### Written policies -/

/-- How the truth values of a policy are spelt. -/
structure Policy.Spelling (p : Policy) where
  flag : CharClass → List Char
  readFlag?_flag : ∀ c, Options.readFlag? (flag c) = some (p.requires c)

namespace Policy.Spelling

variable {p : Policy} (spelling : p.Spelling)

/-- The text of a setting's value. -/
def text : Setting → List Char
  | .minLength => Decimal.write p.minLength.toNat
  | .requires c => spelling.flag c

/-- The pairs that write a policy, in the order of its settings. -/
def pairs : List Options.Pair := Setting.all.map fun s => (s.key.toList, spelling.text s)

/-- The part that writes a setting. -/
def part (s : Setting) : List Char := Options.writePair (s.key.toList, spelling.text s)

/-- Every value is read back as the one that was written. -/
theorem read?_text (s : Setting) : s.read? (spelling.text s) = some (p.value s) := by
  cases s with
  | minLength => exact Decimal.readSize?_write p.minLength
  | requires c => exact spelling.readFlag?_flag c

/-- The truth values as plain words. -/
def plain (p : Policy) : p.Spelling where
  flag c := if p.requires c then "true".toList else "false".toList
  readFlag?_flag c := by
    cases h : p.requires c
    · decide
    · decide

instance : Inhabited p.Spelling := ⟨plain p⟩

end Policy.Spelling

end RecordRules.Password
