/-
The log of a walk in line is the log that its record calls for.

What a subscriber records of a walk follows the grammar of logs, and the grammar leaves no choice:
every record has exactly one log. So nothing is logged twice, left out or out of order.

* **`isCallLog_iff`** — the log of a call is the one that its name and its options call for;
* **`isHeldLog_iff`**, **`isRecordLog_iff`** — the log of a record is that of its walk;
* **`Validator.entries_pass_eq_iff`** — a validation logs its span, the walk of its record and, in
  the end, how many failures it reports.
-/
import RecordRules.Pass.Trace
import RecordRules.Validator

namespace RecordRules

variable {s : Settings} {v : Value} {log : List Entry}

/-! ### Calls -/

section Calls

variable {call : Spec.Call}

/-- A log of a call is what its check logs. -/
theorem IsCallLog.eq_entries (h : IsCallLog s v call log) :
    log = (s.events call v).map Event.entry := by
  unfold Settings.events Spec.Call.ruleName?
  cases h with
  | @dispatched rule known readable =>
    rw [RuleName.ofText?_eq_some_iff.2 known, Entry.dispatching, ← known]
    cases rule with
    | password =>
      obtain ⟨policy, hpolicy⟩ := readable rfl
      rw [hpolicy]
      rfl
    | required | email | minLength | maxLength => rfl
  | rejected known unreadable =>
    rw [RuleName.ofText?_eq_some_iff.2 known, Entry.dispatching, ← known]
    simp only [unreadable]
    rfl
  | ignored unknown ignore =>
    rw [RuleName.ofText?_eq_none_iff.2 unknown, ignore]
    rfl
  | refused unknown reject =>
    rw [RuleName.ofText?_eq_none_iff.2 unknown, reject]
    rfl

/-- The four rules of the grammar cover every call. -/
theorem exists_isCallLog (s : Settings) (v : Value) (call : Spec.Call) :
    ∃ log, IsCallLog s v call log := by
  by_cases hknown : ∃ rule : RuleName, rule.text = call.name
  · obtain ⟨rule, known⟩ := hknown
    by_cases hpassword : rule = .password
    · subst hpassword
      cases heffective : Password.Policy.effective call.options s.custom with
      | ok policy => exact ⟨_, .dispatched known fun _ => ⟨policy, heffective⟩⟩
      | error bad => exact ⟨_, .rejected known heffective⟩
    · exact ⟨_, .dispatched known fun h => absurd h hpassword⟩
  · have unknown : ∀ rule : RuleName, rule.text ≠ call.name := fun rule h => hknown ⟨rule, h⟩
    cases hrules : s.unknownRules with
    | ignore => exact ⟨_, .ignored unknown hrules⟩
    | reject => exact ⟨_, .refused unknown hrules⟩

/-- The log of a call is what its check logs, and nothing else. -/
theorem isCallLog_iff : IsCallLog s v call log ↔ log = (s.events call v).map Event.entry := by
  refine ⟨IsCallLog.eq_entries, ?_⟩
  rintro rfl
  obtain ⟨log, h⟩ := exists_isCallLog s v call
  rwa [← h.eq_entries]

theorem isCallsLog_iff (name : String) {calls : List Spec.Call} :
    IsCallsLog s v calls log ↔ log = (Pass.concat (calls.map (s.check name v))).entries := by
  induction calls generalizing log with
  | nil =>
    constructor
    · rintro ⟨⟩
      rfl
    · rintro rfl
      exact .nil
  | cons call calls ih =>
    rw [List.map_cons, Pass.concat, Pass.entries_append]
    constructor
    · rintro (_ | ⟨first, rest⟩)
      rw [isCallLog_iff.1 first, ih.1 rest]
      rfl
    · rintro rfl
      exact .cons (isCallLog_iff.2 rfl) (ih.2 rfl)

end Calls

/-! ### Fields and records -/

theorem isHintLog_iff {f : Field} : IsHintLog f log ↔ log = f.hintEvents.map Event.entry := by
  unfold Field.hintEvents
  constructor
  · rintro (hhint | hhint)
    · rw [hhint]
      rfl
    · rw [hhint]
      rfl
  · rintro rfl
    cases hhint : f.hint with
    | some name => exact .some hhint
    | none => exact .none hhint

/-- The log of a field is that of its walk, if the log of what it holds is. -/
theorem isFieldLog_iff {f : Field}
    (hheld : ∀ inner, IsHeldLog s f.value inner ↔ inner = (s.walkValue f.value).entries) :
    IsFieldLog s f log ↔ log = (s.walkField f).entries := by
  rw [Settings.walk_field, Settings.checkField, Pass.entries_append, Pass.entries_append,
    Pass.entries_within, Pass.entries_logged]
  constructor
  · rintro ⟨hhint, hcalls, hinner⟩
    rw [isHintLog_iff.1 hhint, (isCallsLog_iff f.name).1 hcalls, (hheld _).1 hinner]
  · rintro rfl
    exact .mk (isHintLog_iff.2 rfl) ((isCallsLog_iff f.name).2 rfl) ((hheld _).2 rfl)

theorem isFieldsLog_iff {fields : List Field}
    (hheld : ∀ f ∈ fields, ∀ inner,
      IsHeldLog s f.value inner ↔ inner = (s.walkValue f.value).entries) :
    IsFieldsLog s fields log ↔ log = (s.walkAll fields).entries := by
  induction fields generalizing log with
  | nil =>
    constructor
    · rintro ⟨⟩
      rfl
    · rintro rfl
      exact .nil
  | cons f fields ih =>
    have hfirst : ∀ inner, IsFieldLog s f inner ↔ inner = (s.walkField f).entries :=
      fun _ => isFieldLog_iff (hheld f (by simp))
    have hrest : ∀ inner, IsFieldsLog s fields inner ↔ inner = (s.walkAll fields).entries :=
      fun _ => ih fun g hg => hheld g (by simp [hg])
    rw [Settings.walkAll, Pass.entries_append]
    constructor
    · rintro (_ | ⟨first, rest⟩)
      rw [(hfirst _).1 first, (hrest _).1 rest]
    · rintro rfl
      exact .cons ((hfirst _).2 rfl) ((hrest _).2 rfl)

/-- The log of a record is that of its walk, if the logs of what its fields hold are. -/
theorem isRecordLog_iff_of_held {r : Record}
    (hheld : ∀ f ∈ r.fields, ∀ inner,
      IsHeldLog s f.value inner ↔ inner = (s.walkValue f.value).entries) :
    IsRecordLog s r log ↔ log = (s.walk r).entries := by
  have hfields : ∀ inner, IsFieldsLog s r.fields inner ↔ inner = (s.walkAll r.fields).entries :=
    fun _ => isFieldsLog_iff hheld
  have hwalk : (s.walk r).entries = .visiting r :: (s.walkAll r.fields).entries := by
    cases r
    rfl
  rw [hwalk]
  constructor
  · rintro ⟨fields⟩
    rw [(hfields _).1 fields]
  · rintro rfl
    exact .mk ((hfields _).2 rfl)

theorem isHeldLog_iff (v : Value) :
    ∀ log, IsHeldLog s v log ↔ log = (s.walkValue v).entries := by
  induction v using Value.induction with
  | record r ih =>
    intro log
    rw [Settings.walkValue_record, ← isRecordLog_iff_of_held ih]
    constructor
    · rintro (h | hkind)
      · exact h
      · exact absurd rfl hkind
    · exact .record
  | text | int | uint | float | bool | sequence | mapping | absent | present =>
    -- only a record is entered
    intro log
    constructor
    · rintro ⟨⟩
      rfl
    · rintro rfl
      exact .other (by simp [Value.kind])

theorem isRecordLog_iff {r : Record} : IsRecordLog s r log ↔ log = (s.walk r).entries :=
  isRecordLog_iff_of_held fun f _ => isHeldLog_iff f.value

/-! ### Validations -/

/-- **The trace of a validation in line is faithful.** What a subscriber records is the span of the
validation, the log of the walk of the record and, in the end, the number of the failures that the
validation reports, which is zero where it is a success. The grammar of logs allows nothing else. -/
theorem Validator.entries_pass_eq_iff (v : Validator) (h : v.config.fanOut = .sequential)
    (r : Record) (log : List Entry) :
    (v.pass r).entries = log ↔
      ∃ inner, IsRecordLog v.settings r inner ∧
        log = .validate r :: inner ++ [.finished (v.validate r).report.size] := by
  have hwalk : v.walk r = v.settings.walk r := by rw [walk, h]
  have hentries : (v.pass r).entries
      = .validate r :: (v.settings.walk r).entries ++ [.finished (v.validate r).report.size] := by
    rw [report_validate, pass, hwalk, framed, Pass.entries_append, Pass.entries_append]
    rfl
  rw [hentries]
  constructor
  · rintro rfl
    exact ⟨_, isRecordLog_iff.2 rfl, rfl⟩
  · rintro ⟨inner, hinner, rfl⟩
    rw [isRecordLog_iff.1 hinner]

/-- A hint, a name that no rule has, a record in a field, and options without an equals sign. -/
theorem Validator.entries_pass_account :
    let login : Field := ⟨"login", .text "", "required,trimmed", some "user"⟩
    let secret : Field := ⟨"secret", .text "x", "password=min_length", none⟩
    let keys : Record := ⟨"Keys", [secret]⟩
    let account : Record := ⟨"Account", [login, ⟨"keys", .record keys, "", none⟩]⟩
    let v : Validator := ⟨Config.standard.withFanOut .sequential, none⟩
    let call : Spec.Call := ⟨"password", "min_length"⟩
    v.config.fanOut = .sequential ∧
      ∃ inner, IsRecordLog v.settings account inner ∧
        [.validate account, .visiting account, .hint login "user",
            .dispatching ⟨"required", ""⟩ login.value, .ignoring ⟨"trimmed", ""⟩, .visiting keys,
            .dispatching call secret.value, .optionsRejected call ⟨"min_length"⟩, .finished 2]
          = .validate account :: inner ++ [.finished (v.validate account).report.size] := by
  intro login secret keys account v call
  have hlog : (v.pass account).log
      = [.started "Account", .visiting "Account" 2, .serializedAs "login" "user",
          .dispatching .required .string, .ignoring "trimmed", .visiting "Keys" 1,
          .dispatching .password .string, .optionsRejected ⟨"min_length"⟩ "min_length",
          .finished 2] := by
    decide +kernel
  refine ⟨rfl, (entries_pass_eq_iff v rfl account _).1 ?_⟩
  rw [Pass.entries, hlog]
  rfl

end RecordRules
