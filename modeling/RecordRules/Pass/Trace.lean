/-
What a walk in line leaves in the log.

The log is told here in the words of a subscriber: every entry has a level, a label and attributes.
A record has one entry of its own, and after it come the logs of its fields, in order. A field has
an entry for its hint, if it has one, then the entries of its calls, in order, and then, if it holds
a record, the log of that record.

* **`IsCallLog`** — the four things that can become of a call;
* **`IsRecordLog`** — the log of the walk of a record.
-/
import RecordRules.Pass.Walk

namespace RecordRules

/-! ### Entries -/

/-- A span or an event, as a subscriber records it. -/
structure Entry where
  isSpan : Bool
  level : Event.Level
  label : String
  attributes : List (String × Json)

/-- What a subscriber records of an event. -/
def Event.entry (e : Event) : Entry := ⟨e.isSpan, e.level, e.label, e.attributes⟩

/-- What a subscriber records of a pass. -/
def Pass.entries (p : Pass) : List Entry := p.log.map Event.entry

@[simp] theorem Pass.entries_empty : (∅ : Pass).entries = [] := rfl

@[simp] theorem Pass.entries_logged (events : List Event) :
    (Pass.logged events).entries = events.map Event.entry := rfl

@[simp] theorem Pass.entries_append (a b : Pass) : (a ++ b).entries = a.entries ++ b.entries :=
  List.map_append

@[simp] theorem Pass.entries_within (p : Pass) (parent : String) :
    (p.within parent).entries = p.entries := rfl

namespace Entry

/-- The span of a validation, with the type of its record. -/
def validate (r : Record) : Entry := ⟨true, .debug, "validate", [("record", .text r.typeName)]⟩

/-- The event at the end of a validation, with the number of its failures. -/
def finished (failures : Nat) : Entry :=
  ⟨false, .debug, "validation finished", [("errors", .size failures.toUInt64)]⟩

/-- The event of entering a record, with its type and the number of its fields. -/
def visiting (r : Record) : Entry :=
  ⟨false, .trace, "visiting record",
    [("record", .text r.typeName), ("fields", .size r.fields.length.toUInt64)]⟩

/-- The event of a field that is serialized under another name. -/
def hint (f : Field) (name : String) : Entry :=
  ⟨false, .trace, "field serialization hint",
    [("field", .text f.name), ("serialized_name", .text name)]⟩

/-- The event of putting the rule that a call names to a value. -/
def dispatching (call : Spec.Call) (v : Value) : Entry :=
  ⟨false, .trace, "dispatching rule", [("rule", .text call.name), ("kind", .text v.kind.name)]⟩

/-- The event of passing over a call, with its name. -/
def ignoring (call : Spec.Call) : Entry :=
  ⟨false, .debug, "ignoring unknown validation rule", [("rule", .text call.name)]⟩

/-- The event of options that are bad for a password rule, with the policy to fall back on. -/
def optionsRejected (call : Spec.Call) (bad : Password.Policy.BadOptions) : Entry :=
  ⟨false, .debug, "password options rejected, check skipped",
    [("error", .text bad.message), ("options", .text call.options),
      ("fallback", .text Password.Policy.standard.describe)]⟩

end Entry

/-! ### Logs -/

variable (s : Settings)

/-- The log of a call that is checked against a value. -/
inductive IsCallLog (v : Value) (call : Spec.Call) : List Entry → Prop where
  /-- The call names a rule, and not the password rule with options that it cannot read. -/
  | dispatched {rule : RuleName} (known : rule.text = call.name)
      (readable : rule = .password →
        ∃ policy, Password.Policy.effective call.options s.custom = .ok policy) :
      IsCallLog v call [.dispatching call v]
  | rejected {bad : Password.Policy.BadOptions} (known : RuleName.password.text = call.name)
      (unreadable : Password.Policy.effective call.options s.custom = .error bad) :
      IsCallLog v call [.dispatching call v, .optionsRejected call bad]
  | ignored (unknown : ∀ rule : RuleName, rule.text ≠ call.name)
      (ignore : s.unknownRules = .ignore) : IsCallLog v call [.ignoring call]
  -- what is rejected is reported, and not logged
  | refused (unknown : ∀ rule : RuleName, rule.text ≠ call.name)
      (reject : s.unknownRules = .reject) : IsCallLog v call []

/-- The logs of some calls that are checked against a value, one after another. -/
inductive IsCallsLog (v : Value) : List Spec.Call → List Entry → Prop where
  | nil : IsCallsLog v [] []
  | cons {call : Spec.Call} {calls : List Spec.Call} {log more : List Entry}
      (first : IsCallLog s v call log) (rest : IsCallsLog v calls more) :
      IsCallsLog v (call :: calls) (log ++ more)

/-- The log of the hint of a field, if it has one. -/
inductive IsHintLog (f : Field) : List Entry → Prop where
  | some {name : String} (hint : f.hint = some name) : IsHintLog f [.hint f name]
  | none (hint : f.hint = none) : IsHintLog f []

mutual

/-- The log of the walk of a record. -/
inductive IsRecordLog : Record → List Entry → Prop where
  | mk {r : Record} {log : List Entry} (fields : IsFieldsLog r.fields log) :
      IsRecordLog r (.visiting r :: log)

/-- The logs of some fields, one after another. -/
inductive IsFieldsLog : List Field → List Entry → Prop where
  | nil : IsFieldsLog [] []
  | cons {f : Field} {fields : List Field} {log more : List Entry} (first : IsFieldLog f log)
      (rest : IsFieldsLog fields more) : IsFieldsLog (f :: fields) (log ++ more)

/-- The log of a field: its hint, its calls and what it holds. -/
inductive IsFieldLog : Field → List Entry → Prop where
  | mk {f : Field} {hint own inner : List Entry} (isHintLog : IsHintLog f hint)
      (isCallsLog : IsCallsLog s f.value f.calls own) (isHeldLog : IsHeldLog f.value inner) :
      IsFieldLog f (hint ++ own ++ inner)

/-- The log of the record that a value is, if it is one. -/
inductive IsHeldLog : Value → List Entry → Prop where
  | record {r : Record} {log : List Entry} (isRecordLog : IsRecordLog r log) :
      IsHeldLog (.record r) log
  | other {v : Value} (kind : v.kind ≠ .record) : IsHeldLog v []

end

end RecordRules
