/-
Configuration documents say what their form says.

* **`Password.Policy.realises`**, **`Config.realises`** — every setting is read as it may be written.
-/
import RecordRules.Config.Form
import RecordRules.Proofs.Document.Groups

namespace RecordRules

open Json Document

/-! ### Policies -/

namespace Password

theorem Policy.changes_withMinLength (p : Policy) (n : UInt64) :
    Policy.form.Changes Setting.minLength n p (p.withMinLength n) := by
  refine ⟨rfl, ?_⟩
  rintro (_ | c) hne
  · exact absurd rfl hne
  · exact p.requires_withMinLength n c

theorem Policy.changes_withClass (p : Policy) (c : CharClass) (on : Bool) :
    Policy.form.Changes (Setting.requires c) on p (p.withClass c on) := by
  refine ⟨?_, ?_⟩
  · show (p.withClass c on).requires c = on
    simp
  · rintro (_ | d) hne
    · exact p.minLength_withClass c on
    · show (p.withClass c on).requires d = p.requires d
      rw [requires_withClass, if_neg fun hd => hne (by rw [hd])]

def Policy.realises : Policy.shape.Realises Policy.form where
  entry := Setting.entry
  entries_eq := rfl
  key_entry s := by cases s <;> rfl
  meets s p := by
    cases s with
    | minLength => exact meets_put form Setting.minLength meets_size p.changes_withMinLength
    | requires c => exact meets_put form (Setting.requires c) meets_flag (p.changes_withClass c)
  start_eq := rfl

end Password

/-! ### Choices -/

theorem FanOut.ofText?_eq_some_iff {s : String} {choice : FanOut} :
    FanOut.ofText? s = some choice ↔ s = choice.text :=
  (Options.find?_key_eq_some_iff FanOut.ofText?_text).trans eq_comm

theorem UnknownRules.ofText?_eq_some_iff {s : String} {choice : UnknownRules} :
    UnknownRules.ofText? s = some choice ↔ s = choice.text :=
  (Options.find?_key_eq_some_iff UnknownRules.ofText?_text).trans eq_comm

namespace Config

/-- A null holds no members. -/
theorem not_holds_null {form : Form α} (members : List Member) :
    ¬ form.Holds members "null".toList := by
  rintro (hobject | ⟨hlist, -⟩)
  · obtain ⟨-, htokens⟩ | ⟨s, -, htokens⟩ := tokens_object hobject []
    all_goals rw [tokens_null] at htokens; cases htokens
  · obtain ⟨-, htokens⟩ | ⟨s, -, htokens⟩ := tokens_list hlist []
    all_goals rw [tokens_null] at htokens; cases htokens

theorem changes_withFanOut (c : Config) (choice : FanOut) :
    form.Changes Setting.fanOut choice c (c.withFanOut choice) := by
  refine ⟨rfl, ?_⟩
  rintro (_ | _ | _) hne
  · exact absurd rfl hne
  · rfl
  · rfl

theorem changes_withUnknownRules (c : Config) (choice : UnknownRules) :
    form.Changes Setting.unknownRules choice c (c.withUnknownRules choice) := by
  refine ⟨rfl, ?_⟩
  rintro (_ | _ | _) hne
  · rfl
  · exact absurd rfl hne
  · rfl

theorem changes_password (c : Config) (password : Option Password.Policy) :
    form.Changes Setting.password password c { c with password } := by
  refine ⟨rfl, ?_⟩
  rintro (_ | _ | _) hne
  · rfl
  · rfl
  · exact absurd rfl hne

/-- How a document gives one setting of a configuration. -/
def Setting.entry : Setting → Entry Config
  | .fanOut => ⟨"fan_out", fun c => (Reader.choice fanOutChoices).map c.withFanOut⟩
  | .unknownRules =>
    ⟨"unknown_rules", fun c => (Reader.choice unknownRulesChoices).map c.withUnknownRules⟩
  | .password =>
    ⟨"password", fun c =>
      (Reader.struct Password.Policy.shape).optional.map fun password => { c with password }⟩

def realises : shape.Realises form where
  entry := Setting.entry
  entries_eq := rfl
  key_entry s := by cases s <;> rfl
  meets s c := by
    cases s with
    | fanOut =>
      exact meets_put form Setting.fanOut (meets_choice FanOut.ofText?_eq_some_iff)
        c.changes_withFanOut
    | unknownRules =>
      exact meets_put form Setting.unknownRules (meets_choice UnknownRules.ofText?_eq_some_iff)
        c.changes_withUnknownRules
    | password =>
      exact meets_put form Setting.password
        (Password.Policy.realises.meets_struct.optional fun _ h => not_holds_null _ h.choose_spec.1)
        c.changes_password
  start_eq := rfl

end Config

end RecordRules
