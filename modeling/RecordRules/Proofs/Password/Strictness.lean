/-
A stricter custom policy never lets more pass.

One policy is at most as strict as another if it asks for no more characters and for no class that
the other does not ask for. Options that refine two policies set the same settings in both, to
whatever values, so the refined policies compare as the policies do.

* **`Policy.refine_mono`** — refined policies compare as the policies do;
* **`Policy.weakness?_eq_none_of_le`** — what passes under a policy passes under a less strict one,
  whatever it lacks first where it does not pass;
* **`Settings.finding?_eq_none_of_le`** — and so does every check;
* **`Validator.fails_of_stricter`** — so a stricter custom policy fails what a less strict one fails.
-/
import RecordRules.Proofs.Password.Influence

namespace RecordRules

namespace Password.Policy

variable {p q : Policy}

/-! ### Strictness -/

/-- A policy is at most as strict as another: it asks for no more characters, and for no class that
the other does not ask for. -/
instance : LE Policy where
  le p q := p.minLength ≤ q.minLength ∧ ∀ c, p.requires c = true → q.requires c = true

/-- Policies refined by the same options compare as the policies do. -/
theorem refine_mono (h : p ≤ q) (pairs : List Options.Pair) : p.refine pairs ≤ q.refine pairs := by
  obtain ⟨hmin, hrequires⟩ := h
  refine ⟨?_, fun c => ?_⟩
  · show (p.refine pairs).value .minLength ≤ (q.refine pairs).value .minLength
    rw [value_refine, value_refine]
    -- a size that the options give is the same for both
    cases (pairs.filterMap Setting.minLength.assigned?).getLast? with
    | none => exact hmin
    | some n => exact UInt64.le_refl n
  · show (p.refine pairs).value (.requires c) = true → (q.refine pairs).value (.requires c) = true
    rw [value_refine, value_refine]
    cases (pairs.filterMap (Setting.requires c).assigned?).getLast? with
    | none => exact hrequires c
    | some on => exact id

/-- What passes under a policy passes under a less strict one. -/
theorem weakness?_eq_none_of_le (h : p ≤ q) {password : String}
    (hq : q.weakness? password = none) : p.weakness? password = none := by
  obtain ⟨hmin, hrequires⟩ := h
  obtain ⟨hlength, hclass⟩ := weakness?_eq_none_iff.1 hq
  refine weakness?_eq_none_iff.2 ⟨?_, fun c hc => hclass c (hrequires c hc)⟩
  exact Nat.le_trans (UInt64.le_iff_toNat_le.1 hmin) hlength

end Password.Policy

/-! ### Checks -/

theorem Rule.violation?_password_of_le {p q : Password.Policy} (h : p ≤ q) {v : Value}
    (hq : (password q).violation? v = none) : (password p).violation? v = none := by
  rw [violation?_of_ne_required (by simp), Option.bind_eq_none_iff] at hq ⊢
  intro w hw
  have hheld := hq w hw
  cases w with
  | text s =>
    have hnone := Password.Policy.weakness?_eq_none_of_le h (Option.map_eq_none_iff.1 hheld)
    exact Option.map_eq_none_iff.2 hnone
  | int | uint | float | bool | sequence | mapping | absent | present | record => cases hheld

variable {custom other : Option Password.Policy}

/-- A check that finds nothing under a custom policy finds nothing under a less strict one. -/
theorem Settings.finding?_eq_none_of_le (h : custom.getD .standard ≤ other.getD .standard)
    {unknownRules : UnknownRules} {call : Spec.Call} {v : Value}
    (hother : finding? ⟨other, unknownRules⟩ call v = none) :
    finding? ⟨custom, unknownRules⟩ call v = none := by
  rcases finding?_cases unknownRules call v with ⟨found, hfound⟩ | ⟨pairs, hfound⟩
  · rw [hfound] at hother ⊢
    exact hother
  · rw [hfound, Option.map_eq_none_iff] at hother ⊢
    exact Rule.violation?_password_of_le (Password.Policy.refine_mono h pairs) hother

/-! ### Validations -/

/-- **A stricter custom policy never lets more pass.** Compare two custom policies, where none is as
strict as the standard one. Every call of every visited field that fails under the less strict one
fails under the stricter one too, so a record that is valid under the stricter one is valid under
the other. -/
theorem Validator.fails_of_stricter (config : Config)
    (h : custom.getD .standard ≤ other.getD .standard) (r : Record) :
    let lenient : Validator := ⟨config, custom⟩
    let strict : Validator := ⟨config, other⟩
    (∀ visit ∈ r.visits [], ∀ call ∈ visit.calls,
        (lenient.settings.failure? call visit.field.value).isSome = true →
          (strict.settings.failure? call visit.field.value).isSome = true) ∧
      (strict.validate r = .ok () → lenient.validate r = .ok ()) := by
  intro lenient strict
  have hpasses : ∀ call value, strict.settings.finding? call value = none →
      lenient.settings.finding? call value = none := fun _ _ => Settings.finding?_eq_none_of_le h
  refine ⟨?_, ?_⟩
  · intro visit _ call _ hfails
    rw [Option.isSome_iff_ne_none] at hfails ⊢
    intro hnone
    exact hfails (Option.map_eq_none_iff.2 (hpasses call _ (Option.map_eq_none_iff.1 hnone)))
  · rw [validate_eq_ok_iff_failures, validate_eq_ok_iff_failures, Record.failures_eq_nil_iff,
      Record.failures_eq_nil_iff]
    intro hvalid visit hvisit call hcall
    exact hpasses call _ (hvalid visit hvisit call hcall)

/-- A policy that asks for a special character only, against none: the first secret lacks a digit
too, which is what it is told under the standard policy. -/
theorem Validator.fails_of_stricter_special :
    let special : Password.Policy := ⟨0, false, false, false, true⟩
    let lenient : Validator := ⟨.standard, some special⟩
    let strict : Validator := ⟨.standard, none⟩
    let secret (text : String) : Field := ⟨"secret", .text text, "password=min_length=6", none⟩
    let call : Spec.Call := ⟨"password", "min_length=6"⟩
    special ≤ .standard ∧
      (lenient.settings.failure? call (.text "weakling")).isSome = true ∧
      (strict.settings.failure? call (.text "weakling")).isSome = true ∧
      strict.validate ⟨"Account", [secret "Str0ng!"]⟩ = .ok () ∧
      lenient.validate ⟨"Account", [secret "Str0ng!"]⟩ = .ok () := by
  intro special lenient strict secret call
  have hle : special ≤ .standard := ⟨by decide, fun c _ => by cases c <;> rfl⟩
  have hfails : (lenient.settings.failure? call (.text "weakling")).isSome = true := by
    decide +kernel
  have hvalid : strict.validate ⟨"Account", [secret "Str0ng!"]⟩ = .ok () :=
    (validate_eq_ok_iff_failures _ _).2 (by decide +kernel)
  have hvisit : ⟨[], secret "weakling"⟩ ∈ Record.visits [] ⟨"Account", [secret "weakling"]⟩ :=
    Record.mem_visits_of_mem List.mem_cons_self []
  have hcall : call ∈ Visit.calls ⟨[], secret "weakling"⟩ := by decide +kernel
  have h := @fails_of_stricter (some special) none .standard hle
  have hstrict := (h ⟨"Account", [secret "weakling"]⟩).1 _ hvisit call hcall hfails
  have hlenient := (h ⟨"Account", [secret "Str0ng!"]⟩).2 hvalid
  exact ⟨hle, hfails, hstrict, hvalid, hlenient⟩

end RecordRules
