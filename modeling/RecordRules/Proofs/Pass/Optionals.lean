/-
Optionals: present ones are looked through, and absent ones are left to `required`.

Every rule but `required` looks at what is held, under however many present optionals, and passes
where nothing is. `required` is to fail there, but sees the outermost optional alone: an absent
optional inside a present one escapes both.

* **`Settings.finding?_wrapped`** — a check of another rule finds the same in what is held and in
  what holds it;
* **`Settings.kind_of_failure?`** — the kind that it reports is that of what is held;
* **`Settings.failure?_wrapped`** — so present optionals are transparent to all rules but one;
* **`Value.hidesAbsence_iff`** — where nothing is held, `required` passes an absent optional inside
  a present one and no other value;
* **`Spec.LeavesAbsence.report_eq_empty_iff`** — so a field with `required` and another rule passes
  with such a value, and else only with one that the other rule has looked at.
-/
import RecordRules.Proofs.Password.Complete
import RecordRules.Proofs.Rule.Length
import RecordRules.Proofs.Rule.Violations

namespace RecordRules

open Text

/-! ### Present optionals -/

theorem Rule.violation?_wrapped {rule : Rule} (h : rule ≠ .required) (v : Value) (n : Nat) :
    rule.violation? (v.wrapped n) = rule.violation? v := by
  rw [violation?_of_ne_required h, violation?_of_ne_required h, Value.held?_wrapped]

theorem Spec.Call.ne_required_of_rule_eq_ok {c : Call} {rule : Rule}
    {custom : Option Password.Policy} (h : c.rule custom = .ok rule) (hname : c.name ≠ "required") :
    rule ≠ .required := by
  rintro rfl
  exact hname (RuleName.ofText?_eq_some_iff.1 (ruleName?_of_rule_eq_ok h)).symm

theorem Settings.finding?_wrapped (s : Settings) {call : Spec.Call} (hname : call.name ≠ "required")
    (v : Value) (n : Nat) : s.finding? call (v.wrapped n) = s.finding? call v := by
  unfold finding?
  cases hrule : call.rule s.custom with
  | ok rule =>
    have hne := Spec.Call.ne_required_of_rule_eq_ok hrule hname
    simp only [Rule.violation?_wrapped hne]
  | error problem => cases problem <;> rfl

/-! ### Reported kinds -/

theorem Spec.Problem.param?_kind (problem : Problem) : problem.toFailure.param? "kind" = none := by
  cases problem <;> rfl

/-- The kind that a check of another rule than `required` reports is that of what is held. -/
theorem Settings.kind_of_failure? {s : Settings} {call : Spec.Call} (hname : call.name ≠ "required")
    {v : Value} {failure : Failure} (h : s.failure? call v = some failure) {kind : String}
    (hkind : failure.param? "kind" = some kind) : ∃ w, v.held? = some w ∧ kind = w.kind.name := by
  obtain ⟨finding, hfinding, rfl⟩ := Option.map_eq_some_iff.1 h
  cases finding with
  | problem problem =>
    rw [Finding.toFailure, problem.param?_kind] at hkind
    cases hkind
  | violation violation =>
    rw [Finding.toFailure, violation.param?_kind] at hkind
    obtain ⟨k, hk, rfl⟩ := Option.map_eq_some_iff.1 hkind
    obtain ⟨rule, hrule, hviolation⟩ := exists_rule_of_finding? hfinding
    have hne := Spec.Call.ne_required_of_rule_eq_ok hrule hname
    rcases Rule.violation?_cases hviolation with ⟨hrequired, -⟩ | ⟨-, w, hw, hheld⟩
    · exact absurd hrequired hne
    · exact ⟨w, hw, congrArg Kind.name (hheld.kind_eq k hk)⟩

/-- **Present optionals are transparent to every rule but `required`.** A call of another name, or
of no rule at all, fails with a value under present optionals just as it fails with the value
itself, and a kind that it reports is that of what is held, which is no optional. -/
theorem Settings.failure?_wrapped (s : Settings) {call : Spec.Call} (hname : call.name ≠ "required")
    (v : Value) (n : Nat) :
    s.failure? call (v.wrapped n) = s.failure? call v ∧
      ∀ failure ∈ s.failure? call (v.wrapped n), ∀ kind, failure.param? "kind" = some kind →
        ∃ w, v.held? = some w ∧ kind = w.kind.name ∧ kind ≠ "optional" := by
  have heq : s.failure? call (v.wrapped n) = s.failure? call v :=
    congrArg (Option.map Finding.toFailure) (s.finding?_wrapped hname v n)
  refine ⟨heq, ?_⟩
  intro failure hfailure kind hkind
  rw [heq] at hfailure
  obtain ⟨w, hw, rfl⟩ := kind_of_failure? hname hfailure hkind
  exact ⟨w, hw, rfl, Kind.name_ne_optional (Value.kind_of_held? hw)⟩

/-- The kind that is told is that of the number, whatever is around it. -/
theorem Settings.failure?_wrapped_number :
    "min_length" ≠ "required" ∧
      Settings.failure? ⟨none, .ignore⟩ ⟨"min_length", "3"⟩ (.present (.present (.int 5)))
        = Settings.failure? ⟨none, .ignore⟩ ⟨"min_length", "3"⟩ (.int 5) ∧
      Settings.failure? ⟨none, .ignore⟩ ⟨"min_length", "3"⟩ (.int 5)
        = some (Failure.unsupportedKind "MinLength" "int") := by
  have hname : "min_length" ≠ "required" := by decide
  exact ⟨hname, (@failure?_wrapped ⟨none, .ignore⟩ ⟨"min_length", "3"⟩ hname (.int 5) 2).1,
    by decide +kernel⟩

/-! ### Absent optionals -/

/-- An absent optional inside a present one. -/
def Value.HidesAbsence (v : Value) : Prop := ∃ n, v = Value.absent.wrapped (n + 1)

/-- Nothing is held, and yet the value is not zero. -/
theorem Value.hidesAbsence_iff {v : Value} :
    v.HidesAbsence ↔ v.held? = none ∧ v.isZero = false := by
  rw [held?_eq_none_iff]
  constructor
  · rintro ⟨n, rfl⟩
    exact ⟨⟨n + 1, rfl⟩, rfl⟩
  · rintro ⟨⟨n, rfl⟩, hzero⟩
    cases n with
    | zero => cases hzero
    | succ n => exact ⟨n, rfl⟩

/-! ### Fields that ask for `required` and another rule -/

/-- The rule texts of one rule that leaves absent values to `required`, with that rule. -/
inductive Spec.LeavesAbsence (custom : Option Password.Policy) : String → Rule → Prop where
  | minLength (n : UInt64) :
    LeavesAbsence custom ("min_length=" ++ Decimal.ofNat n.toNat) (.minLength n)
  | email : LeavesAbsence custom "email" .email
  | password : LeavesAbsence custom "password" (.password (custom.getD .standard))

theorem Settings.report_checkField_eq_empty_iff {s : Settings} {f : Field} :
    (s.checkField f).report = ∅ ↔ ∀ call ∈ f.calls, s.finding? call f.value = none := by
  rw [Report.ext_iff, failures_checkField]
  simp

namespace Spec.LeavesAbsence

variable {custom : Option Password.Policy} {text : String} {rule : Rule}

theorem ne_required (h : LeavesAbsence custom text rule) : rule ≠ .required := by
  cases h <;> simp

/-- Such a rule text makes one call after that of `required`, and it asks for the rule. -/
theorem exists_call (h : LeavesAbsence custom text rule) :
    ∃ call : Call, (ofText ("required," ++ text)).calls = [⟨"required", ""⟩, call] ∧
      call.rule custom = .ok rule := by
  cases h with
  | minLength n =>
    have hend : ∀ c ∈ Decimal.write n.toNat, isGroupEnd c = false := fun c hc =>
      isGroupEnd_of_isDigit (List.all_eq_true.1 (Decimal.all_isDigit_write n.toNat) c hc)
    have htrim : trim (Decimal.write n.toNat) = Decimal.write n.toNat :=
      trimEnds_of_kept fun c hc => isBlank_of_isGroupEnd (hend c hc)
    have hcomma : ',' ∉ LengthRule.min.token (Decimal.write n.toNat) := by
      have hdigits : ',' ∉ Decimal.write n.toNat := fun hc => absurd (hend ',' hc) (by decide)
      simpa [LengthRule.token, LengthRule.word] using hdigits
    have hcalls : ofTokens [LengthRule.min.token (Decimal.write n.toNat)]
        = [⟨"min_length", Decimal.ofNat n.toNat⟩] := by
      rw [LengthRule.ofTokens_token, htrim, ofTokens_nil]
      rfl
    refine ⟨⟨"min_length", Decimal.ofNat n.toNat⟩, ?_, ?_⟩
    · have htext : ("required," ++ ("min_length=" ++ Decimal.ofNat n.toNat)).toList
          = "required".toList ++ ',' :: LengthRule.min.token (Decimal.write n.toNat) := by
        simp [LengthRule.token, LengthRule.word, Decimal.ofNat]
      rw [calls_eq_ofTokens, htext, pieces_of_cut (by decide), pieces_of_not_mem hcomma,
        ofTokens_plain rfl, hcalls]
      rfl
    · refine LengthRule.min.rule_of_readSize? ?_
      rw [Decimal.ofNat, String.toList_ofList, Decimal.readSize?_write]
  | email => exact ⟨⟨"email", ""⟩, by decide +kernel, rfl⟩
  | password => exact ⟨⟨"password", ""⟩, by decide +kernel, rfl⟩

/-- The field passes exactly where `required` and the other rule find nothing. -/
theorem report_eq_empty_iff {s : Settings} (h : LeavesAbsence s.custom text rule) (field : String)
    (hint : Option String) (v : Value) :
    (s.checkField ⟨field, v, "required," ++ text, hint⟩).report = ∅ ↔
      v.isZero = false ∧ ∀ w ∈ v.held?, rule.heldViolation? w = none := by
  obtain ⟨call, hcalls, hrule⟩ := h.exists_call
  have hfield : Field.calls ⟨field, v, "required," ++ text, hint⟩
      = [⟨"required", ""⟩, call] := hcalls
  have hrequired : Call.rule s.custom ⟨"required", ""⟩ = .ok .required := rfl
  rw [Settings.report_checkField_eq_empty_iff, hfield, List.forall_mem_cons,
    List.forall_mem_singleton, Settings.finding?_eq_none_iff hrequired,
    Settings.finding?_eq_none_iff hrule, Rule.violation?_of_ne_required h.ne_required,
    Option.bind_eq_none_iff, Rule.violation?_required_eq_none_iff]
  rfl

end Spec.LeavesAbsence

/-- **What `required` leaves uncaught is hidden absence, and nothing else.** Of the values that hold
nothing, `required` passes those with an absent optional inside a present one, and fails the one
that is absent itself. A field with `required` and another rule passes exactly where such a value
escapes both, or where the value is not zero and holds another that the other rule has looked at
and found good. -/
theorem Settings.required_misses_hidden_absence (s : Settings) (v : Value) :
    (v.held? = none → (Rule.required.failure? v = none ↔ v.HidesAbsence)) ∧
      ∀ text rule, Spec.LeavesAbsence s.custom text rule → ∀ field hint,
        ((s.checkField ⟨field, v, "required," ++ text, hint⟩).report = ∅ ↔
          v.HidesAbsence ∨
            v.isZero = false ∧ ∃ w, v.held? = some w ∧ rule.heldViolation? w = none) := by
  refine ⟨?_, ?_⟩
  · intro hheld
    rw [Rule.failure?, Option.map_eq_none_iff, Rule.violation?_required_eq_none_iff,
      Value.hidesAbsence_iff, and_iff_right hheld]
  · intro text rule h field hint
    rw [h.report_eq_empty_iff, Value.hidesAbsence_iff]
    cases v.held? with
    | none => simp
    | some w => simp

/-- An absent optional inside a present one holds nothing, and `required` passes it all the same; so
does a record that asks for `required` and another rule with it. -/
theorem Validator.hidden_absence_passes :
    let v : Value := .present .absent
    v.held? = none ∧ Rule.required.failure? v = none ∧
      ∀ rules ∈ ["required,min_length=1", "required,email", "required,password"],
        Validator.standard.validate ⟨"Contact", [⟨"mail", v, rules, none⟩]⟩ = .ok () := by
  decide +kernel

/-- Three present optionals around an absent one escape, and the same around an address do not need
to. -/
theorem Settings.required_misses_hidden_absence_mail :
    let mail (v : Value) : Field := ⟨"mail", v, "required," ++ "email", none⟩
    (Settings.checkField ⟨none, .reject⟩ (mail (Value.absent.wrapped 3))).report = ∅ ∧
      (Settings.checkField ⟨none, .reject⟩ (mail ((Value.text "a@b.io").wrapped 3))).report = ∅ := by
  intro mail
  refine ⟨?_, ?_⟩
  · exact ((Settings.required_misses_hidden_absence _ _).2 _ _ .email _ _).2 (.inl ⟨2, rfl⟩)
  · exact ((Settings.required_misses_hidden_absence _ _).2 _ _ .email _ _).2
      (.inr ⟨rfl, .text "a@b.io", rfl, by decide +kernel⟩)

end RecordRules
