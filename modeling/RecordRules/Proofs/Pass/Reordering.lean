/-
Order affects nothing but the order of failures.

A record is reordered by putting its fields, those of the records that they hold and so on, into
another order, and by writing the calls of each field in another order. A record inside an optional
is not visited, and stays as it is.

* **`Value.Reordered.isZero_eq`** — reordered values are zero together, so `required` finds the same;
* **`Value.Reordered.violation?_eq`** — and so does every rule;
* **`Value.Reordered.perm_failures`** — the visits of reordered values find the same failures, with
  the same paths and as often;
* **`Validator.perm_validate`** — so a reordered record is valid when the record is, and otherwise
  its failures are the same in another order.
-/
import Mathlib.Data.List.Perm.Basic
import RecordRules.Proofs.Pass.Enumeration

open scoped List

namespace RecordRules

/-! ### Reordered records -/

/-- The same value up to the order of fields and calls, at every visited level. Each field of a
record is paired with what becomes of it. -/
inductive Value.Reordered : Value → Value → Prop where
  | refl (v : Value) : Reordered v v
  | record {r r' : Record} (pairs : List (Field × Field))
      (typeName : r'.typeName = r.typeName)
      (fields : pairs.map Prod.fst = r.fields)
      (fields' : (pairs.map Prod.snd).Perm r'.fields)
      (names : ∀ p ∈ pairs, p.2.name = p.1.name ∧ p.2.hint = p.1.hint)
      -- any rule text that makes the same calls in another order
      (calls : ∀ p ∈ pairs, p.1.calls.Perm p.2.calls)
      (values : ∀ p ∈ pairs, Reordered p.1.value p.2.value) :
      Reordered (.record r) (.record r')

/-- The same record up to the order of fields and calls, at every visited level. -/
abbrev Record.Reordered (r r' : Record) : Prop := Value.Reordered (.record r) (.record r')

/-! ### What rules see of reordered values -/

namespace Value.Reordered

variable {v w : Value}

theorem kind_eq (h : v.Reordered w) : v.kind = w.kind := by
  cases h <;> rfl

/-- Reordered values are zero together: whether all fields are zero is no matter of their order. -/
theorem isZero_eq (h : v.Reordered w) : v.isZero = w.isZero := by
  induction h with
  | refl => rfl
  | @record r r' pairs _ hfields hfields' _ _ _ ih =>
    calc (Value.record r).isZero
        = pairs.all fun p => p.1.value.isZero := by
          rw [isZero_record, ← hfields, List.all_map]
          rfl
      _ = pairs.all fun p => p.2.value.isZero := by
          rw [Bool.eq_iff_iff, List.all_eq_true, List.all_eq_true]
          exact forall₂_congr fun p hp => by rw [ih p hp]
      _ = (Value.record r').isZero := by
          rw [isZero_record, ← hfields'.all_eq, List.all_map]
          rfl

/-- All rules find the same with reordered values. -/
theorem violation?_eq (h : v.Reordered w) (rule : Rule) : rule.violation? v = rule.violation? w := by
  cases rule with
  | required => rw [Rule.violation?_required, Rule.violation?_required, h.isZero_eq, h.kind_eq]
  | email | minLength | maxLength | password =>
    -- the other rules see of a record that it is one
    cases h <;> rfl

end Value.Reordered

/-! ### Failures of reordered values -/

variable {s : Settings}

/-- A field finds the same failures when its calls and its value are reordered. -/
theorem Visit.perm_failures (around : List String) {f g : Field} (hname : g.name = f.name)
    (hcalls : f.calls.Perm g.calls) (hvalue : f.value.Reordered g.value) :
    (Visit.failures s ⟨around, f⟩).Perm (Visit.failures s ⟨around, g⟩) := by
  have hpath : Visit.path ⟨around, g⟩ = Visit.path ⟨around, f⟩ := by simp [Visit.path, hname]
  have hfinding : ∀ call, s.finding? call g.value = s.finding? call f.value := fun call =>
    (Settings.finding?_congr_value hvalue.violation?_eq s call).symm
  unfold Visit.failures
  rw [hpath]
  simp only [hfinding]
  exact hcalls.filterMap _

/-- The visits of reordered values find the same failures in another order. -/
theorem Value.Reordered.perm_failures {v w : Value} (h : v.Reordered w) : ∀ around : List String,
    ((v.visits around).flatMap (Visit.failures s)).Perm
      ((w.visits around).flatMap (Visit.failures s)) := by
  induction h with
  | refl => exact fun _ => .refl _
  | @record r r' pairs _ hfields hfields' hnames hcalls hvalues ih =>
    intro around
    let found (f : Field) : List Failure := (f.visits around).flatMap (Visit.failures s)
    -- pair by pair: first the field itself, then what it holds, under the same names
    have hpair : ∀ p ∈ pairs, (found p.1).Perm (found p.2) := by
      intro p hp
      obtain ⟨hname, -⟩ := hnames p hp
      simp only [found, Field.visits_eq, List.flatMap_cons]
      refine List.Perm.append (Visit.perm_failures around hname (hcalls p hp) (hvalues p hp)) ?_
      rw [hname]
      exact ih p hp _
    have hfound : ∀ r : Record,
        ((Value.record r).visits around).flatMap (Visit.failures s) = r.fields.flatMap found := by
      intro r
      rw [Value.visits_record, List.flatMap_assoc]
    rw [hfound, hfound]
    calc r.fields.flatMap found
        = pairs.flatMap fun p => found p.1 := by rw [← hfields, List.flatMap_map]
      _ ~ pairs.flatMap fun p => found p.2 := List.Perm.flatMap_left pairs hpair
      _ = (pairs.map Prod.snd).flatMap found := by rw [List.flatMap_map]
      _ ~ r'.fields.flatMap found := hfields'.flatMap_right found

/-! ### Validations -/

/-- **Order affects nothing but the order of failures.** Reorder the fields of a record at every
visited level, and the calls of every visited field, by any other rule text. Under every
configuration and policy the record is as valid as before, and what a validation reports are the
same failures, with the same codes, messages, parameters and paths and as often as before. -/
theorem Validator.perm_validate {r r' : Record} (h : r.Reordered r') (v : Validator) :
    (v.validate r' = .ok () ↔ v.validate r = .ok ()) ∧
      (v.validate r').report.failures.Perm (v.validate r).report.failures := by
  have hperm : (r'.failures v.settings).Perm (r.failures v.settings) := (h.perm_failures []).symm
  refine ⟨?_, ?_⟩
  · rw [validate_eq_ok_iff_failures, validate_eq_ok_iff_failures]
    constructor
    · intro hnil
      rw [hnil] at hperm
      exact hperm.nil_eq.symm
    · intro hnil
      rw [hnil] at hperm
      exact hperm.eq_nil
  · rwa [failures_validate, failures_validate]

/-- The fields of both records and the calls of one field change places. The inner record is zero
before and after. -/
theorem Validator.perm_validate_swapped :
    let street : Field := ⟨"street", .text "", "required,min_length=2", none⟩
    let street' : Field := ⟨"street", .text "", "min_length = 2,,required", none⟩
    let floor : Field := ⟨"floor", .int 0, "", some "level"⟩
    let home (fields : List Field) : Field := ⟨"home", .record ⟨"Home", fields⟩, "required", none⟩
    let mail : Field := ⟨"mail", .text "nobody", "email", none⟩
    let user : Record := ⟨"User", [home [street, floor], mail]⟩
    let user' : Record := ⟨"User", [mail, home [floor, street']]⟩
    user.Reordered user' ∧
      (Validator.standard.validate user').report.failures.Perm
        (Validator.standard.validate user).report.failures := by
  intro street street' floor home mail user user'
  have hcalls : street.calls.Perm street'.calls := by decide +kernel
  have hinside : Record.Reordered ⟨"Home", [street, floor]⟩ ⟨"Home", [floor, street']⟩ := by
    refine .record [(street, street'), (floor, floor)] rfl rfl (.swap _ _ _) ?_ ?_ ?_
    · simp [street, street']
    · simpa using hcalls
    · simpa [street, street'] using ⟨.refl _, .refl _⟩
  have houtside : user.Reordered user' := by
    refine .record [(home [street, floor], home [floor, street']), (mail, mail)] rfl rfl
      (.swap _ _ _) ?_ ?_ ?_
    · simp [home]
    · simp [home, Field.calls]
    · simpa [home] using ⟨hinside, .refl _⟩
  exact ⟨houtside, (Validator.perm_validate houtside .standard).2⟩

end RecordRules
