/-
Walking a record field by field.

A field's calls are checked in the order of its rule text; then, if its value is a record, that
record is walked, and what it reports moves into the field. A record inside an optional is not
entered.

* **`walk_record`**, **`walk_field`** — the walk of a record and of a field, in terms of each other.
-/
import RecordRules.Pass.Check
import RecordRules.Spec

namespace RecordRules

/-- The calls that the rule text of a field makes. -/
def Field.calls (f : Field) : List Spec.Call := (Spec.ofText f.rules).calls

/-- What is logged before the rules of a field. -/
def Field.hintEvents (f : Field) : List Event :=
  match f.hint with
  | some hint => [.serializedAs f.name hint]
  | none => []

namespace Settings

variable (s : Settings)

/-- The checks of a field: its hint and its own rules, without the record that it may hold. -/
def checkField (f : Field) : Pass :=
  .logged f.hintEvents ++ .concat (f.calls.map (s.check f.name f.value))

mutual

/-- The walk of a record. -/
def walk : Record → Pass
  | ⟨typeName, fields⟩ => .logged [.visiting typeName fields.length] ++ walkAll fields

/-- The walk of some fields, in order. -/
def walkAll : List Field → Pass
  | [] => ∅
  | f :: rest => walkField f ++ walkAll rest

/-- The walk of a field. -/
def walkField : Field → Pass
  | ⟨name, value, rules, hint⟩ =>
    s.checkField ⟨name, value, rules, hint⟩ ++ (walkValue value).within name

/-- The walk of the record that a value is, if it is one. -/
def walkValue : Value → Pass
  | .record r => walk r
  -- also for a present optional with a record in it
  | _ => ∅

end

/-! ### The walk, step by step -/

theorem walkAll_eq (fields : List Field) :
    s.walkAll fields = .concat (fields.map s.walkField) := by
  induction fields with
  | nil => rfl
  | cons f fields ih => rw [walkAll, ih]; rfl

theorem walk_record (r : Record) :
    s.walk r
      = .logged [.visiting r.typeName r.fields.length] ++ .concat (r.fields.map s.walkField) := by
  cases r; rw [walk, walkAll_eq]

theorem walk_field (f : Field) :
    s.walkField f = s.checkField f ++ (s.walkValue f.value).within f.name := by
  cases f; rfl

@[simp] theorem walkValue_record (r : Record) : s.walkValue (.record r) = s.walk r := rfl

theorem walkValue_of_kind {v : Value} (h : v.kind ≠ .record) : s.walkValue v = ∅ := by
  cases v <;> first | rfl | exact absurd rfl h

end Settings

end RecordRules
