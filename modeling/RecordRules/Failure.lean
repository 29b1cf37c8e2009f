/-
Failures: what one rule found wrong.

A failure has a code for programs, a message for people, parameters in the order in which they were
given and, once it is known, the path of the field: field names joined by dots, outermost first.

* **`field_within`** — moving a failure into a parent field puts the parent's name in front of its
  path;
* **`within_within`** — moving it twice is moving it once, under both names;
* **`get?_paramObject`** — the JSON form of the parameters answers a key with the last value given
  for it, where `param?` answers with the first.
-/
import RecordRules.Json

namespace RecordRules

/-- One failure of a rule, or of the text that asks for one. -/
structure Failure where
  code : String
  message : String
  field : Option String
  /-- Keys and values, in the order in which they were given; keys may repeat. -/
  params : List (String × String)
  deriving DecidableEq, Repr

namespace Failure

/-- A failure without a path and parameters. -/
def of (code message : String) : Failure := ⟨code, message, none, []⟩

/-- The failure at this path. -/
def atField (f : Failure) (path : String) : Failure := { f with field := some path }

/-- The failure with one more parameter. -/
def withParam (f : Failure) (key value : String) : Failure :=
  { f with params := f.params ++ [(key, value)] }

/-- The path of a field inside a parent field. -/
def joinPath (parent : String) : Option String → String
  | some path => parent ++ "." ++ path
  | none => parent

/-- The failure as one of a record that the field `parent` holds. -/
def within (f : Failure) (parent : String) : Failure :=
  { f with field := some (joinPath parent f.field) }

/-- The first value given for a parameter. -/
def param? (f : Failure) (key : String) : Option String := f.params.lookup key

/-- The message, after the path where there is one. -/
def text (f : Failure) : String :=
  match f.field with
  | some path => path ++ ": " ++ f.message
  | none => f.message

/-- The parameters as a JSON object. -/
def paramObject (f : Failure) : Json :=
  .ofPairs (f.params.map fun (key, value) => (key, .text value))

/-- The JSON form of a failure. -/
def toJson (f : Failure) : Json :=
  .object [
    ("code", .text f.code),
    ("message", .text f.message),
    ("field", match f.field with
      | some path => .text path
      | none => .null),
    ("params", f.paramObject)]

/-! ### Common failures -/

/-- A text or a sequence has too few characters or elements. -/
def tooShort (min : UInt64) (actual : Nat) : Failure :=
  of "min_length"
      ("field must have a minimum length of " ++ Decimal.ofNat min.toNat ++ " characters")
    |>.withParam "min" (Decimal.ofNat min.toNat)
    |>.withParam "actual" (Decimal.ofNat actual)

/-- A text or a sequence has too many characters or elements. -/
def tooLong (max : UInt64) (actual : Nat) : Failure :=
  of "max_length"
      ("field must have a maximum length of " ++ Decimal.ofNat max.toNat ++ " characters")
    |>.withParam "max" (Decimal.ofNat max.toNat)
    |>.withParam "actual" (Decimal.ofNat actual)

/-- A rule is asked of a kind of value that it cannot look into. -/
def unsupportedKind (rule kind : String) : Failure :=
  of "unsupported_type" ("unsupported type for " ++ rule ++ " validation: " ++ kind)
    |>.withParam "rule" rule
    |>.withParam "kind" kind

/-! ### Paths and parameters -/

variable (f : Failure)

@[simp] theorem field_atField (path : String) : (f.atField path).field = some path := rfl

@[simp] theorem field_within (parent : String) :
    (f.within parent).field = some (joinPath parent f.field) := rfl

theorem within_within (inner outer : String) :
    (f.within inner).within outer = f.within (outer ++ "." ++ inner) := by
  cases h : f.field <;> simp [within, joinPath, h, String.append_assoc]

theorem lookup_append_singleton (params : List (String × String)) (key value k : String) :
    (params ++ [(key, value)]).lookup k
      = (params.lookup k).or (if k = key then some value else none) := by
  rw [List.lookup_append]
  by_cases hk : k = key
  · simp [hk]
  · simp [hk, List.lookup_cons, beq_eq_false_iff_ne.2 hk]

theorem param?_withParam (key value k : String) :
    (f.withParam key value).param? k
      = (f.param? k).or (if k = key then some value else none) :=
  lookup_append_singleton f.params key value k

theorem get?_paramObject (key : String) :
    f.paramObject.get? key = (f.params.reverse.lookup key).map .text := by
  -- the last value of a key is the first one from the end
  rw [paramObject, Json.get?_ofPairs, ← List.map_reverse]
  generalize f.params.reverse = params
  induction params with
  | nil => rfl
  | cons param params ih =>
    obtain ⟨k, v⟩ := param
    by_cases hk : key = k
    · simp [hk]
    · simpa [List.lookup_cons, beq_eq_false_iff_ne.2 hk] using ih

end Failure

end RecordRules
