/-
Reports: the failures of one validation, in the order in which they were found.

Nothing is dropped or merged: two equal failures are two entries.

* **`within_append`**, **`within_within`** — moving a report into a parent field;
* **`toExcept_eq_ok_iff`** — only a report without failures is a success.
-/
import RecordRules.Failure

namespace RecordRules

/-- Failures in the order in which they were found. -/
structure Report where
  failures : List Failure
  deriving DecidableEq, Repr

namespace Report

/-- No failures. -/
def empty : Report := ⟨[]⟩

instance : EmptyCollection Report := ⟨empty⟩

/-- The report of these failures. -/
def ofList (failures : List Failure) : Report := ⟨failures⟩

/-- The report of one failure. -/
def singleton (f : Failure) : Report := ⟨[f]⟩

/-- A failure at the end. -/
def add (r : Report) (f : Failure) : Report := ⟨r.failures ++ [f]⟩

/-- The failures of the first report, then those of the second. -/
instance : Append Report := ⟨fun a b => ⟨a.failures ++ b.failures⟩⟩

/-- The report as that of a record which the field `parent` holds. -/
def within (r : Report) (parent : String) : Report := ⟨r.failures.map (·.within parent)⟩

/-- The failures of the field with this path. -/
def atPath (r : Report) (path : String) : List Failure :=
  r.failures.filter fun f => f.field == some path

/-- The number of failures. -/
def size (r : Report) : Nat := r.failures.length

def isEmpty (r : Report) : Bool := r.failures.isEmpty

/-- The texts of the failures. -/
def messages (r : Report) : List String := r.failures.map Failure.text

/-- The texts of the failures, one a line. -/
def text (r : Report) : String := "\n".intercalate r.messages

/-- The JSON list of the failures. -/
def toJson (r : Report) : Json := .list (r.failures.map Failure.toJson)

/-- Success exactly where there are no failures. -/
def toExcept (r : Report) : Except Report Unit := if r.isEmpty then .ok () else .error r

/-! ### Adding and moving -/

variable (a b c : Report) (p q : String)

@[ext] theorem ext {a b : Report} (h : a.failures = b.failures) : a = b := by
  cases a; cases b; exact congrArg _ h

@[simp] theorem failures_empty : (∅ : Report).failures = [] := rfl

@[simp] theorem failures_append : (a ++ b).failures = a.failures ++ b.failures := rfl

@[simp] theorem failures_add (f : Failure) : (a.add f).failures = a.failures ++ [f] := rfl

@[simp] theorem failures_within : (a.within p).failures = a.failures.map (·.within p) := rfl

@[simp] theorem append_empty : a ++ (∅ : Report) = a := by ext1; simp

@[simp] theorem empty_append : (∅ : Report) ++ a = a := rfl

theorem append_assoc : a ++ b ++ c = a ++ (b ++ c) := by ext1; simp

@[simp] theorem within_empty : (∅ : Report).within p = ∅ := rfl

@[simp] theorem within_append : (a ++ b).within p = a.within p ++ b.within p := by ext1; simp

theorem within_within : (a.within p).within q = a.within (q ++ "." ++ p) := by
  ext1; simp [Function.comp_def, Failure.within_within]

theorem toExcept_eq_ok_iff : a.toExcept = .ok () ↔ a = ∅ := by
  obtain ⟨failures⟩ := a
  cases failures <;> simp [toExcept, isEmpty, EmptyCollection.emptyCollection, empty]

theorem toExcept_ofList (failures : List Failure) :
    (ofList failures).toExcept = if failures = [] then .ok () else .error (ofList failures) := by
  cases failures <;> simp [toExcept, isEmpty, ofList]

end Report

end RecordRules
