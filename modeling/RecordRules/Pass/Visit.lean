/-
The fields that a walk visits, with their paths.

The fields of a record are visited in order; after a field that holds a record come the fields of
that record. The path of a field is the names from the outermost record down to it.
-/
import RecordRules.Pass.Walk

namespace RecordRules

/-- A visited field: the names of the fields around it, outermost first, and the field. -/
structure Visit where
  around : List String
  field : Field

/-- Names joined by dots. -/
def dotted (names : List String) : String := ".".intercalate names

/-- The names from the outermost record down to a visited field. -/
def Visit.names (v : Visit) : List String := v.around ++ [v.field.name]

/-- The path of a visited field. -/
def Visit.path (v : Visit) : String := dotted (v.around ++ [v.field.name])

/-- The calls of a visited field, in order. -/
def Visit.calls (v : Visit) : List Spec.Call := v.field.calls

/-- The failures that the checks of a visited field find, each with the whole path. -/
def Visit.failures (s : Settings) (v : Visit) : List Failure :=
  v.calls.filterMap fun call =>
    (s.finding? call v.field.value).map fun finding => finding.toFailure.atField v.path

mutual

/-- The visits of a record that stands under the given names. -/
def Record.visits (around : List String) : Record → List Visit
  | ⟨_, fields⟩ => Field.visitsOfAll around fields

/-- The visits of some fields, in order. -/
def Field.visitsOfAll (around : List String) : List Field → List Visit
  | [] => []
  | f :: rest => f.visits around ++ Field.visitsOfAll around rest

/-- The visits of a field: the field itself, then those of the record that it holds. -/
def Field.visits (around : List String) : Field → List Visit
  | ⟨name, value, rules, hint⟩ =>
    ⟨around, ⟨name, value, rules, hint⟩⟩ :: value.visits (around ++ [name])

/-- The visits of the record that a value is, if it is one. -/
def Value.visits (around : List String) : Value → List Visit
  | .record r => r.visits around
  | _ => []

end

/-- The failures of all visited fields of a record, in the order of the visits. -/
def Record.failures (s : Settings) (r : Record) : List Failure :=
  (r.visits []).flatMap (Visit.failures s)

/-- The failures of a visited field are the findings of its calls, with its path. -/
theorem Visit.mem_failures_iff {s : Settings} {visit : Visit} {failure : Failure} :
    failure ∈ visit.failures s ↔
      ∃ call ∈ visit.calls, ∃ finding, s.finding? call visit.field.value = some finding ∧
        finding.toFailure.atField visit.path = failure := by
  simp only [failures, List.mem_filterMap, Option.map_eq_some_iff]

theorem Field.visits_eq (around : List String) (f : Field) :
    f.visits around = ⟨around, f⟩ :: f.value.visits (around ++ [f.name]) := by
  cases f; rfl

theorem Field.visitsOfAll_cons (around : List String) (f : Field) (rest : List Field) :
    Field.visitsOfAll around (f :: rest) = f.visits around ++ Field.visitsOfAll around rest := rfl

theorem Field.visitsOfAll_eq (around : List String) (fields : List Field) :
    Field.visitsOfAll around fields = fields.flatMap (Field.visits around) := by
  induction fields with
  | nil => rfl
  | cons f fields ih => rw [visitsOfAll_cons, ih, List.flatMap_cons]

theorem Value.visits_record (around : List String) (r : Record) :
    (Value.record r).visits around = r.fields.flatMap (Field.visits around) := by
  rw [← Field.visitsOfAll_eq]
  cases r; rfl

/-- All fields of a record are visited, whatever else is. -/
theorem Record.mem_visits_of_mem {r : Record} {f : Field} (h : f ∈ r.fields)
    (around : List String) : ⟨around, f⟩ ∈ r.visits around := by
  show (⟨around, f⟩ : Visit) ∈ (Value.record r).visits around
  rw [Value.visits_record]
  refine List.mem_flatMap.2 ⟨f, h, ?_⟩
  rw [Field.visits_eq]
  exact List.mem_cons_self

end RecordRules
