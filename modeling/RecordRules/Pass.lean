/-
Passes: what one validation, or a part of one, logs and reports.

Every event of a log has a level, a label and named attributes; the start of a validation is a span,
all others are single events. Passes follow one another: first the log and report of the first, then
those of the second.
-/
import RecordRules.Report
import RecordRules.Rule

namespace RecordRules

/-! ### Events -/

/-- Something that a validator logs. -/
inductive Event where
  | started (typeName : String)
  /-- A record with so many fields is entered. -/
  | visiting (typeName : String) (fields : Nat)
  /-- The next field is serialized under another name. -/
  | serializedAs (field name : String)
  /-- A rule is put to a value. -/
  | dispatching (rule : RuleName) (kind : Kind)
  /-- A name that no rule has is passed over. -/
  | ignoring (name : String)
  /-- The options of a password rule are bad, and the rule is not put to the value. -/
  | optionsRejected (bad : Password.Policy.BadOptions) (options : String)
  | finished (failures : Nat)
  | policySet (policy : Password.Policy)
  deriving DecidableEq, Repr

/-- How much an event matters. -/
inductive Event.Level where
  | trace
  | debug
  deriving DecidableEq, Repr

namespace Event

/-- Whether an event spans what follows it. -/
def isSpan : Event → Bool
  | started _ => true
  | _ => false

def level : Event → Level
  | visiting .. | serializedAs .. | dispatching .. => .trace
  | started _ | ignoring _ | optionsRejected .. | finished _ | policySet _ => .debug

def label : Event → String
  | started _ => "validate"
  | visiting .. => "visiting record"
  | serializedAs .. => "field serialization hint"
  | dispatching .. => "dispatching rule"
  | ignoring _ => "ignoring unknown validation rule"
  | optionsRejected .. => "password options rejected, check skipped"
  | finished _ => "validation finished"
  | policySet _ => "custom password rules set"

/-- The attributes of an event. -/
def attributes : Event → List (String × Json)
  | started typeName => [("record", .text typeName)]
  | visiting typeName fields => [("record", .text typeName), ("fields", .size fields.toUInt64)]
  | serializedAs field name => [("field", .text field), ("serialized_name", .text name)]
  | dispatching rule kind => [("rule", .text rule.text), ("kind", .text kind.name)]
  | ignoring name => [("rule", .text name)]
  | optionsRejected bad options =>
    [("error", .text bad.message), ("options", .text options),
      ("fallback", .text bad.fallback.describe)]
  | finished failures => [("errors", .size failures.toUInt64)]
  | policySet policy => [("policy", .text policy.describe)]

end Event

/-! ### Passes -/

/-- A log and a report. -/
structure Pass where
  log : List Event
  report : Report
  deriving DecidableEq, Repr

namespace Pass

/-- Nothing logged, nothing reported. -/
instance : EmptyCollection Pass := ⟨⟨[], ∅⟩⟩

instance : Append Pass := ⟨fun a b => ⟨a.log ++ b.log, a.report ++ b.report⟩⟩

/-- A pass that only logs. -/
def logged (events : List Event) : Pass := ⟨events, ∅⟩

/-- A pass inside a parent field: its report moves into the field. -/
def within (p : Pass) (parent : String) : Pass := { p with report := p.report.within parent }

/-- Passes, one after another. -/
def concat : List Pass → Pass
  | [] => ∅
  | p :: rest => p ++ concat rest

/-! ### Passes in a row -/

variable (a b c : Pass)

@[ext] theorem ext {a b : Pass} (hlog : a.log = b.log) (hreport : a.report = b.report) : a = b := by
  cases a; cases b; simp_all

@[simp] theorem log_empty : (∅ : Pass).log = [] := rfl

@[simp] theorem report_empty : (∅ : Pass).report = ∅ := rfl

@[simp] theorem log_append : (a ++ b).log = a.log ++ b.log := rfl

@[simp] theorem report_append : (a ++ b).report = a.report ++ b.report := rfl

@[simp] theorem log_logged (events : List Event) : (logged events).log = events := rfl

@[simp] theorem report_logged (events : List Event) : (logged events).report = ∅ := rfl

@[simp] theorem log_within (parent : String) : (a.within parent).log = a.log := rfl

@[simp] theorem report_within (parent : String) :
    (a.within parent).report = a.report.within parent := rfl

@[simp] theorem append_empty : a ++ (∅ : Pass) = a := by ext1 <;> simp

@[simp] theorem empty_append : (∅ : Pass) ++ a = a := by ext1 <;> simp

theorem append_assoc : a ++ b ++ c = a ++ (b ++ c) := by
  ext1 <;> simp [Report.append_assoc]

@[simp] theorem within_empty (parent : String) : (∅ : Pass).within parent = ∅ := rfl

@[simp] theorem within_append (parent : String) :
    (a ++ b).within parent = a.within parent ++ b.within parent := by
  ext1 <;> simp

@[simp] theorem concat_append (ps qs : List Pass) : concat (ps ++ qs) = concat ps ++ concat qs := by
  induction ps with
  | nil => simp [concat]
  | cons p ps ih => simp [concat, ih, append_assoc]

end Pass

end RecordRules
