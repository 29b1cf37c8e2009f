/-
What a document gives for a configuration.

A password policy that is null is none. Any other is a group of its own, so that a setting which is
not given there is that of the standard policy, and not of any other.

* **`Password.Policy.form`**, **`Config.form`** — the settings, and how their values are written.
-/
import RecordRules.Config
import RecordRules.Document.Form
import RecordRules.Password.Precedence

namespace RecordRules

open Json Document

namespace Password

/-- How the values of a setting are written in documents. -/
def Setting.IsWritten : (s : Setting) → List Char → s.Value → Prop
  | .minLength, w, n => IsSize w n
  | .requires _, w, on => w = (if on then "true" else "false").toList

/-- The settings of a policy. -/
def Policy.form : Form Policy where
  Setting := Setting
  all := Setting.all
  mem_all := Setting.mem_all
  nodup_all := by decide
  key := Setting.key
  key_inj := Setting.key_inj.1
  Value := Setting.Value
  IsWritten := Setting.IsWritten
  value := Policy.value
  ofValues := Policy.ofValues
  value_ofValues values := funext (value_ofValues values)
  ofValues_value := ofValues_value
  standard := .standard

end Password

namespace Config

/-- One of the three settings of a configuration. -/
inductive Setting where
  | fanOut
  | unknownRules
  | password
  deriving DecidableEq, Repr

namespace Setting

/-- The settings in the order of a configuration. -/
def all : List Setting := [fanOut, unknownRules, password]

/-- The key of a setting in documents. -/
def key : Setting → String
  | fanOut => "fan_out"
  | unknownRules => "unknown_rules"
  | password => "password"

/-- The values of a setting. -/
abbrev Value : Setting → Type
  | fanOut => FanOut
  | unknownRules => UnknownRules
  | password => Option Password.Policy

/-- How the values of a setting are written in documents. -/
def IsWritten : (s : Setting) → List Char → s.Value → Prop
  | fanOut, w, choice => IsChoice choice.text w
  | unknownRules, w, choice => IsChoice choice.text w
  | password, w, policy => IsNullOr Password.Policy.form.IsGroup w policy

end Setting

/-- The value of a setting in a configuration. -/
def value (c : Config) : (s : Setting) → s.Value
  | .fanOut => c.fanOut
  | .unknownRules => c.unknownRules
  | .password => c.password

/-- The configuration with these values. -/
def ofValues (value : (s : Setting) → s.Value) : Config :=
  ⟨value .fanOut, value .unknownRules, value .password⟩

/-- The settings of a configuration. -/
def form : Form Config where
  Setting := Setting
  all := Setting.all
  mem_all s := by cases s <;> decide
  nodup_all := by decide
  key := Setting.key
  key_inj {s t} h := by cases s <;> cases t <;> first | rfl | exact absurd h (by decide)
  Value := Setting.Value
  IsWritten := Setting.IsWritten
  value := value
  ofValues := ofValues
  value_ofValues values := by funext s; cases s <;> rfl
  ofValues_value _ := rfl
  standard := standard

/-- Whether members repeat a known key, or give the password as an object that does. -/
def Repeats (members : List Member) : Prop :=
  (∃ s : Setting, Repeated s.key members) ∨
    ∃ m ∈ members, m.HasKey Setting.password.key ∧
      ∃ inner, IsObject inner m.value ∧ ∃ s : Password.Setting, Repeated s.key inner

end Config

end RecordRules
