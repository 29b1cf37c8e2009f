/-
Password policies.

A policy sets the least number of characters and says which character classes must occur. The
default asks for eight characters and every class.

A policy can be refined by an option list: each of its five settings has a key, the last value that
can be read for a key counts, and keys that are no setting and values that cannot be read are passed
over. Only a part without an equals sign makes the list bad.

Of a password, the first thing that it lacks under a policy is told. Length comes first, then the
classes in the order digit, uppercase, lowercase, special.

* **`effective_empty`** — without options, the given policy or the default one holds;
* **`effective_eq`** — and an empty option list is one without pairs;
* **`refine_append`** — refining by two lists of pairs is refining by one after the other;
* **`weakness?_eq_none_iff`** — a password passes exactly when it is long enough and has a character
  of every class that the policy asks for.
-/
import RecordRules.Decimal
import RecordRules.Failure
import RecordRules.Options

namespace RecordRules.Password

open Text

/-! ### Character classes -/

/-- The classes of characters that a policy can ask for. -/
inductive CharClass where
  | digit
  | uppercase
  | lowercase
  | special
  deriving DecidableEq, Repr

/-- The characters of the class `special`. -/
def specialChars : String := "~!@#$%^&*()-_+=<>?/[]\x7b\x7d|"

namespace CharClass

/-- The classes in the order in which they are checked. -/
def all : List CharClass := [digit, uppercase, lowercase, special]

/-- The characters of a class. Digits and letters are the ASCII ones. -/
def has : CharClass → Char → Bool
  | digit, c => c.isDigit
  | uppercase, c => c.isUpper
  | lowercase, c => c.isLower
  | special, c => specialChars.toList.contains c

end CharClass

/-! ### Policies -/

/-- The least number of characters and the classes that must occur. -/
structure Policy where
  minLength : UInt64
  digits : Bool
  uppercase : Bool
  lowercase : Bool
  special : Bool
  deriving DecidableEq, Repr

/-- One of the five settings of a policy. -/
inductive Setting where
  | minLength
  | requires (c : CharClass)
  deriving DecidableEq, Repr

namespace Setting

/-- The settings in the order of a policy. -/
def all : List Setting := .minLength :: CharClass.all.map .requires

/-- The key of a setting in option lists and documents. -/
def key : Setting → String
  | .minLength => "min_length"
  | .requires .digit => "require_digits"
  | .requires .uppercase => "require_uppercase"
  | .requires .lowercase => "require_lowercase"
  | .requires .special => "require_special_chars"

theorem mem_all (s : Setting) : s ∈ all := by
  rcases s with _ | c
  · decide
  · cases c <;> decide

/-- There are five settings, so what can be decided of each can be decided of all. -/
instance {P : Setting → Prop} [DecidablePred P] : Decidable (∀ s, P s) :=
  decidable_of_iff (∀ s ∈ all, P s) ⟨fun h s => h s s.mem_all, fun h s _ => h s⟩

/-- The setting with this key. -/
def ofKey? (key : String) : Option Setting := all.find? fun setting => setting.key = key

@[simp] theorem ofKey?_key (s : Setting) : ofKey? s.key = some s := by
  rcases s with _ | c
  · decide
  · cases c <;> decide

theorem key_inj {s t : Setting} : s.key = t.key ↔ s = t := by
  refine ⟨?_, congrArg key⟩
  intro h
  have hkeys : ofKey? s.key = ofKey? t.key := congrArg ofKey? h
  rw [ofKey?_key, ofKey?_key] at hkeys
  exact Option.some.inj hkeys

theorem ofKey?_eq_some_iff {key : String} {s : Setting} : ofKey? key = some s ↔ s.key = key :=
  Options.find?_key_eq_some_iff ofKey?_key

/-- Whether a token is `key=value` with the key of a setting. -/
def isAssignment (token : List Char) : Bool :=
  match cut '=' token with
  | some (key, _) => (ofKey? (String.ofList (trim key))).isSome
  | none => false

/-- An assignment is a key of a setting, an equals sign and any value. -/
theorem isAssignment_iff {token : List Char} :
    isAssignment token = true ↔
      ∃ key value, token = key ++ '=' :: value ∧ '=' ∉ key ∧
        (ofKey? (String.ofList (trim key))).isSome = true := by
  unfold isAssignment
  constructor
  · intro h
    cases hcut : cut '=' token with
    | none => simp [hcut] at h
    | some pair =>
      obtain ⟨hkey, htoken⟩ := cut_eq_some_iff.1 hcut
      exact ⟨pair.1, pair.2, htoken, hkey, by simpa [hcut] using h⟩
  · rintro ⟨key, value, rfl, hkey, h⟩
    rw [cut_append_cons hkey]
    exact h

/-- Before the first equals sign of an assignment stands the key of a setting, between blanks. -/
theorem exists_key_of_isAssignment {token : List Char} (h : isAssignment token = true) :
    ∃ (s : Setting) (key value : List Char),
      token = key ++ '=' :: value ∧ '=' ∉ key ∧ trim key = s.key.toList := by
  obtain ⟨key, value, htoken, hkey, hsome⟩ := isAssignment_iff.1 h
  obtain ⟨s, hs⟩ := Option.isSome_iff_exists.1 hsome
  refine ⟨s, key, value, htoken, hkey, ?_⟩
  rw [ofKey?_eq_some_iff.1 hs, String.toList_ofList]

end Setting

namespace Policy

/-- Eight characters and every class. -/
def standard : Policy := ⟨8, true, true, true, true⟩

/-- No requirement at all. -/
def relaxed : Policy := ⟨0, false, false, false, false⟩

instance : Inhabited Policy := ⟨standard⟩

/-- Whether a policy asks for a class. -/
def requires (p : Policy) : CharClass → Bool
  | .digit => p.digits
  | .uppercase => p.uppercase
  | .lowercase => p.lowercase
  | .special => p.special

/-- The policy with this least number of characters. -/
def withMinLength (p : Policy) (n : UInt64) : Policy := { p with minLength := n }

/-- The policy that asks for a class, or does not. -/
def withClass (p : Policy) (c : CharClass) (on : Bool) : Policy :=
  match c with
  | .digit => { p with digits := on }
  | .uppercase => { p with uppercase := on }
  | .lowercase => { p with lowercase := on }
  | .special => { p with special := on }

@[simp] theorem requires_withClass (p : Policy) (c d : CharClass) (on : Bool) :
    (p.withClass c on).requires d = if d = c then on else p.requires d := by
  cases c <;> cases d <;> rfl

@[simp] theorem minLength_withClass (p : Policy) (c : CharClass) (on : Bool) :
    (p.withClass c on).minLength = p.minLength := by
  cases c <;> rfl

@[simp] theorem requires_withMinLength (p : Policy) (n : UInt64) (c : CharClass) :
    (p.withMinLength n).requires c = p.requires c := by
  cases c <;> rfl

@[simp] theorem minLength_withMinLength (p : Policy) (n : UInt64) :
    (p.withMinLength n).minLength = n := rfl

theorem ext_requires {p q : Policy} (hmin : p.minLength = q.minLength)
    (hclass : ∀ c, p.requires c = q.requires c) : p = q := by
  have hd : p.digits = q.digits := hclass .digit
  have hu : p.uppercase = q.uppercase := hclass .uppercase
  have hl : p.lowercase = q.lowercase := hclass .lowercase
  have hs : p.special = q.special := hclass .special
  cases p; cases q
  simp_all

/-! ### Refinement by options -/

/-- The policy after one option. A key that is no setting, or a value that cannot be read, changes
nothing. -/
def refineBy (p : Policy) (option : Options.Pair) : Policy :=
  match Setting.ofKey? (String.ofList option.1) with
  | some .minLength => (Decimal.readSize? option.2).elim p p.withMinLength
  | some (.requires c) => (Options.readFlag? option.2).elim p (p.withClass c)
  | none => p

/-- The policy after some options, in their order. -/
def refine (p : Policy) (options : List Options.Pair) : Policy := options.foldl refineBy p

/-- An option list is bad by its first part without an equals sign. -/
structure BadOptions where
  part : String
  deriving DecidableEq, Repr

/-- What is wrong with an option list. -/
def BadOptions.message (bad : BadOptions) : String :=
  "invalid password rule format: `" ++ bad.part ++ "`"

/-- A policy to fall back on where the option list is bad. -/
def BadOptions.fallback (_ : BadOptions) : Policy := standard

/-- The policy that an option list makes of the custom policy, or of the standard one where there is
none. -/
def effective (options : String) (custom : Option Policy) : Except BadOptions Policy :=
  if options.isEmpty then .ok (custom.getD standard)
  else match Options.pairs options.toList with
    | .error part => .error ⟨String.ofList part⟩
    | .ok pairs => .ok ((custom.getD standard).refine pairs)

@[simp] theorem effective_empty (custom : Option Policy) :
    effective "" custom = .ok (custom.getD standard) := rfl

/-- An empty option list has no pairs, so it needs no case of its own. -/
theorem effective_eq (options : String) (custom : Option Policy) :
    effective options custom
      = match Options.pairs options.toList with
        | .error part => .error ⟨String.ofList part⟩
        | .ok pairs => .ok ((custom.getD standard).refine pairs) := by
  unfold effective
  split
  · next h =>
    obtain rfl : options = "" := String.isEmpty_iff.1 h
    rfl
  · rfl

theorem refine_append (p : Policy) (a b : List Options.Pair) :
    p.refine (a ++ b) = (p.refine a).refine b := List.foldl_append

/-! ### Texts -/

/-- The diagnostic text of a policy. -/
def describe (p : Policy) : String :=
  let flag (b : Bool) : String := if b then "true" else "false"
  "PasswordPolicy \x7b min_length: " ++ Decimal.ofNat p.minLength.toNat
    ++ ", require_digits: " ++ flag p.digits
    ++ ", require_uppercase: " ++ flag p.uppercase
    ++ ", require_lowercase: " ++ flag p.lowercase
    ++ ", require_special_chars: " ++ flag p.special ++ " \x7d"

end Policy

/-! ### What passwords lack -/

/-- What a password lacks. -/
inductive Weakness where
  | tooShort (min : UInt64) (actual : Nat)
  | lacks (c : CharClass)
  deriving DecidableEq, Repr

/-- The first thing that a password lacks under a policy. -/
def Policy.weakness? (p : Policy) (password : String) : Option Weakness :=
  if password.toList.length < p.minLength.toNat then
    some (.tooShort p.minLength password.toList.length)
  else (CharClass.all.find? fun c => p.requires c && !password.toList.any c.has).map .lacks

namespace Weakness

/-- The word for an unmet requirement. -/
def requirement : Weakness → String
  | tooShort .. => "min_length"
  | lacks .digit => "digit"
  | lacks .uppercase => "uppercase"
  | lacks .lowercase => "lowercase"
  | lacks .special => "special"

/-- What a weak password is told. -/
def message : Weakness → String
  | tooShort min _ =>
    "password must have a minimum length of " ++ Decimal.ofNat min.toNat ++ " characters"
  | lacks .digit => "password must contain at least one digit"
  | lacks .uppercase => "password must contain at least one uppercase letter"
  | lacks .lowercase => "password must contain at least one lowercase letter"
  | lacks .special => "password must contain at least one special character"

/-- The failure of a weak password. -/
def toFailure (w : Weakness) : Failure :=
  let failure := Failure.of "password" w.message |>.withParam "requirement" w.requirement
  match w with
  | tooShort min actual =>
    failure.withParam "min" (Decimal.ofNat min.toNat) |>.withParam "actual" (Decimal.ofNat actual)
  | lacks _ => failure

end Weakness

/-- A password passes exactly when it is long enough and has every class asked for. -/
theorem Policy.weakness?_eq_none_iff {p : Policy} {password : String} :
    p.weakness? password = none ↔
      p.minLength.toNat ≤ password.toList.length ∧
        ∀ c, p.requires c = true → ∃ x ∈ password.toList, c.has x = true := by
  -- the search goes through all classes, so finding none is a statement about every class
  have hmem : ∀ c, c ∈ CharClass.all := by intro c; cases c <;> decide
  unfold weakness?
  split
  · next h => simp; omega
  · next h =>
    simp only [Option.map_eq_none_iff, List.find?_eq_none, hmem, true_implies]
    simp only [Bool.and_eq_true, Bool.not_eq_true', List.any_eq_false, not_and, Nat.not_lt.1 h,
      true_and]
    refine forall_congr' fun c => forall_congr' fun _ => ?_
    simp

end RecordRules.Password
