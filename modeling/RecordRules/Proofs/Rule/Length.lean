/-
Length rules, from the token to the failure.

The bound of a length rule is the numeral after the equals sign of its token, blanks around it
aside. A bound that can be read is compared with the length of what the field holds. One that cannot
be read is told instead, whatever the field holds.

* **`LengthRule.ofTokens_token`** — the token of a length rule makes one call, with the trimmed
  bound for its options;
* **`LengthRule.failure?_of_hasLength`**, **`LengthRule.failure?_of_no_length`** — what a length
  rule finds in what has a length, and in what has none;
* **`LengthRule.failure?_iff`** — so the length of a value decides what a length rule finds in it;
* **`LengthRule.failures_token`** — and the numeral and the length decide what comes of a token.
-/
import RecordRules.Decimal.Numeral
import RecordRules.Proofs.Pass.Enumeration
import RecordRules.Proofs.Spec.Tokens
import RecordRules.Rule.Length

namespace RecordRules

open Text

/-! ### Values with a length -/

theorem Value.hasLength_iff {v : Value} {n : Nat} :
    v.HasLength n ↔ ∃ w, v.held? = some w ∧ Rule.measure? w = some n := by
  constructor
  · intro h
    induction h with
    | text s => exact ⟨.text s, rfl, rfl⟩
    | sequence size => exact ⟨.sequence size, rfl, rfl⟩
    | present _ ih => exact ih
  · rintro ⟨w, hw, hn⟩
    induction v using Value.induction with
    | text s =>
      cases hw
      cases hn
      exact .text s
    | sequence size =>
      cases hw
      cases hn
      exact .sequence size
    | present v ih => exact .present (ih hw)
    | absent => cases hw
    | int | uint | float | bool | mapping | record =>
      cases hw
      cases hn

/-- Only texts and sequences are measured. -/
theorem Rule.measure?_eq_none_iff {w : Value} :
    measure? w = none ↔ w.kind ≠ .string ∧ w.kind ≠ .sequence := by
  cases w <;> simp [measure?, Value.kind]

namespace LengthRule

/-! ### Tokens -/

/-- The token that asks for a length rule. -/
def token (r : LengthRule) (bound : List Char) : List Char := r.word.toList ++ '=' :: bound

theorem cut_token (r : LengthRule) (bound : List Char) :
    cut '=' (r.token bound) = some (r.word.toList, bound) :=
  cut_append_cons (by cases r <;> decide)

theorem opening?_token (r : LengthRule) (bound : List Char) :
    Spec.opening? (r.token bound) = none := by
  have hname : trim r.word.toList ≠ Spec.groupName := by cases r <;> decide
  rw [Spec.opening?, cut_token]
  exact if_neg hname

theorem plainCall?_token (r : LengthRule) (bound : List Char) :
    Spec.plainCall? (r.token bound) = some ⟨r.word, String.ofList (trim bound)⟩ := by
  have htrim : trim r.word.toList = r.word.toList := by cases r <;> decide
  have hne : r.word.toList ≠ [] := by cases r <;> decide
  rw [Spec.plainCall?, cut_token]
  show Spec.named (trim r.word.toList) (trim bound) = _
  rw [htrim, Spec.named, if_neg hne, String.ofList_toList]

/-- The token of a length rule makes one call, with the trimmed bound for its options. -/
theorem ofTokens_token (r : LengthRule) (bound : List Char) (rest : List (List Char)) :
    Spec.ofTokens (r.token bound :: rest)
      = ⟨r.word, String.ofList (trim bound)⟩ :: Spec.ofTokens rest := by
  rw [Spec.ofTokens_plain (r.opening?_token bound), plainCall?_token]
  rfl

theorem calls_token (r : LengthRule) {bound : String} (h : ',' ∉ bound.toList) :
    (Spec.ofText (r.word ++ "=" ++ bound)).calls
      = [⟨r.word, String.ofList (trim bound.toList)⟩] := by
  have htext : (r.word ++ "=" ++ bound).toList = r.token bound.toList := by simp [token]
  have hcomma : ',' ∉ r.token bound.toList := by
    have hword : ',' ∉ r.word.toList := by cases r <;> decide
    simp [token, hword, h]
  rw [Spec.calls_eq_ofTokens, htext, pieces_of_not_mem hcomma, ofTokens_token, Spec.ofTokens_nil]

/-! ### Calls -/

variable {s : Settings} {field options : String}

theorem ruleName?_word (r : LengthRule) (options : String) :
    Spec.Call.ruleName? ⟨r.word, options⟩ = some r.name := by
  have hword : r.word = r.name.text := by cases r <;> rfl
  rw [Spec.Call.ruleName?, hword, RuleName.ofText?_text]

theorem rule_of_readSize? (r : LengthRule) {n : UInt64} {custom : Option Password.Policy}
    (h : Decimal.readSize? options.toList = some n) :
    Spec.Call.rule custom ⟨r.word, options⟩ = .ok (r.rule n) := by
  unfold Spec.Call.rule
  rw [ruleName?_word]
  cases r <;> simp only [Spec.Call.lengthBound, h] <;> rfl

/-- A bound that cannot be read is told, whatever the value. -/
theorem failure?_of_unreadable (r : LengthRule) (h : Decimal.readSize? options.toList = none)
    (v : Value) :
    (s.failure? ⟨r.word, options⟩ v).map (·.atField field) = some (r.invalid field options) := by
  unfold Settings.failure? Settings.finding? Spec.Call.rule
  rw [ruleName?_word]
  cases r <;> simp only [Spec.Call.lengthBound, h] <;> rfl

/-! ### What is found -/

variable (r : LengthRule) (n : UInt64) {v w : Value} {actual : Nat}

/-- What a length rule finds in a length that breaks its bound. -/
def violation : LengthRule → UInt64 → Nat → Violation
  | min => .tooShort
  | max => .tooLong

/-- A length rule among those that can only look into some kinds of values. -/
def selective : LengthRule → Selective
  | min => .minLength
  | max => .maxLength

theorem toFailure_violation :
    (r.violation n actual).toFailure.atField field = r.breach field n.toNat actual := by
  cases r with
  | min => simp only [violation, Violation.toFailure, Failure.tooShort, Decimal.ofNat_eq_repr]; rfl
  | max => simp only [violation, Violation.toFailure, Failure.tooLong, Decimal.ofNat_eq_repr]; rfl

theorem toFailure_unsupported (kind : Kind) :
    (Violation.unsupported r.selective kind).toFailure.atField field
      = r.unsupported field kind := by
  cases r <;> rfl

theorem failure?_rule (v : Value) :
    (r.rule n).failure? v = (v.held?.bind fun w =>
      Rule.lengthViolation? r.selective
        (fun k => if r.Breaks n.toNat k then some (r.violation n k) else none) w).map
          Violation.toFailure := by
  cases r <;> rfl

/-- Of what has a length, a length rule finds a length that breaks its bound, and nothing else. -/
theorem failure?_of_hasLength (h : v.HasLength actual) :
    ((r.rule n).failure? v).map (·.atField field)
      = if r.Breaks n.toNat actual then some (r.breach field n.toNat actual) else none := by
  obtain ⟨w, hw, hactual⟩ := Value.hasLength_iff.1 h
  rw [failure?_rule, hw, Option.bind_some, Rule.lengthViolation?, hactual]
  by_cases hbreaks : r.Breaks n.toNat actual
  · simp only [if_pos hbreaks, Option.map_some, toFailure_violation]
  · simp only [if_neg hbreaks, Option.map_none]

/-- In what has no length, a length rule finds the kind. -/
theorem failure?_of_no_length (hw : v.held? = some w)
    (hkind : w.kind ≠ .string ∧ w.kind ≠ .sequence) :
    ((r.rule n).failure? v).map (·.atField field) = some (r.unsupported field w.kind) := by
  rw [failure?_rule, hw, Option.bind_some, Rule.lengthViolation?, Rule.measure?_eq_none_iff.2 hkind]
  simp only [Option.map_some, toFailure_unsupported]

theorem failure?_of_held?_eq_none (h : v.held? = none) : (r.rule n).failure? v = none := by
  rw [failure?_rule, h]
  rfl

theorem breach_inj {bound actual' : Nat} :
    r.breach field bound actual = r.breach field bound actual' ↔ actual = actual' := by
  simp [breach, ← Decimal.ofNat_eq_repr, Decimal.ofNat_inj]

theorem unsupported_inj {kind kind' : Kind} :
    r.unsupported field kind = r.unsupported field kind' ↔ kind = kind' := by
  have hname : kind.name = kind'.name → kind = kind' := by
    cases kind <;> cases kind' <;> simp [Kind.name]
  constructor
  · intro h
    have hparams := congrArg Failure.params h
    exact hname (by simpa [unsupported] using hparams)
  · rintro rfl
    rfl

theorem breach_ne_unsupported {bound : Nat} {kind : Kind} :
    r.breach field bound actual ≠ r.unsupported field kind := by
  intro h
  have hcode : r.word = "unsupported_type" := congrArg Failure.code h
  cases r <;> exact absurd hcode (by decide)

/-! ### Verdicts -/

/-- When a value breaks a bound, when it has no length, and when it passes. One of the three is the
case of every value. -/
theorem length_cases (r : LengthRule) (bound : Nat) (v : Value) :
    (∃ actual, v.HasLength actual ∧ r.Breaks bound actual) ∨
      (∃ w, v.held? = some w ∧ w.kind ≠ .string ∧ w.kind ≠ .sequence) ∨
      (v.held? = none ∨ ∃ actual, v.HasLength actual ∧ ¬ r.Breaks bound actual) := by
  cases hw : v.held? with
  | none => exact .inr (.inr (.inl rfl))
  | some w =>
    cases hn : Rule.measure? w with
    | none => exact .inr (.inl ⟨w, rfl, Rule.measure?_eq_none_iff.1 hn⟩)
    | some actual =>
      have hlength : v.HasLength actual := Value.hasLength_iff.2 ⟨w, hw, hn⟩
      by_cases hbreaks : r.Breaks bound actual
      · exact .inl ⟨actual, hlength, hbreaks⟩
      · exact .inr (.inr (.inr ⟨actual, hlength, hbreaks⟩))

/-- The length of a value decides what a length rule finds. -/
theorem failure?_iff (r : LengthRule) (n : UInt64) (field : String) (v : Value) :
    let found := ((r.rule n).failure? v).map (·.atField field)
    (∀ actual, found = some (r.breach field n.toNat actual) ↔
        v.HasLength actual ∧ r.Breaks n.toNat actual) ∧
      (∀ kind, found = some (r.unsupported field kind) ↔
        ∃ w, v.held? = some w ∧ w.kind = kind ∧ kind ≠ .string ∧ kind ≠ .sequence) ∧
      (found = none ↔
        v.held? = none ∨ ∃ actual, v.HasLength actual ∧ ¬ r.Breaks n.toNat actual) := by
  intro found
  have hbreach : ∀ actual, v.HasLength actual ∧ r.Breaks n.toNat actual →
      found = some (r.breach field n.toNat actual) := by
    rintro actual ⟨hlength, hbreaks⟩
    exact (r.failure?_of_hasLength n hlength).trans (if_pos hbreaks)
  have hunsupported : ∀ w, v.held? = some w ∧ w.kind ≠ .string ∧ w.kind ≠ .sequence →
      found = some (r.unsupported field w.kind) := by
    rintro w ⟨hw, hkind⟩
    exact r.failure?_of_no_length n hw hkind
  have hnone : (v.held? = none ∨ ∃ actual, v.HasLength actual ∧ ¬ r.Breaks n.toNat actual) →
      found = none := by
    rintro (habsent | ⟨actual, hlength, hbreaks⟩)
    · exact Option.map_eq_none_iff.2 (r.failure?_of_held?_eq_none n habsent)
    · exact (r.failure?_of_hasLength n hlength).trans (if_neg hbreaks)
  -- what is found tells the cases apart, and there is no other case
  refine ⟨fun actual => ⟨fun h => ?_, hbreach actual⟩, fun kind => ⟨fun h => ?_, ?_⟩,
    ⟨fun h => ?_, hnone⟩⟩
  · rcases r.length_cases n.toNat v with ⟨actual', hbreaks⟩ | ⟨w, hw⟩ | hpass
    · rw [hbreach actual' hbreaks, Option.some.injEq, breach_inj] at h
      rwa [← h]
    · rw [hunsupported w hw, Option.some.injEq] at h
      exact absurd h.symm r.breach_ne_unsupported
    · rw [hnone hpass] at h
      cases h
  · rcases r.length_cases n.toNat v with ⟨actual, hbreaks⟩ | ⟨w, hw⟩ | hpass
    · rw [hbreach actual hbreaks, Option.some.injEq] at h
      exact absurd h r.breach_ne_unsupported
    · rw [hunsupported w hw, Option.some.injEq, unsupported_inj] at h
      exact ⟨w, hw.1, h, h ▸ hw.2⟩
    · rw [hnone hpass] at h
      cases h
  · rintro ⟨w, hw, rfl, hkind⟩
    exact hunsupported w ⟨hw, hkind⟩
  · rcases r.length_cases n.toNat v with ⟨actual, hbreaks⟩ | ⟨w, hw⟩ | hpass
    · rw [hbreach actual hbreaks] at h
      cases h
    · rw [hunsupported w hw] at h
      cases h
    · exact hpass

/-! ### Fields -/

theorem failures_field (r : LengthRule) (s : Settings) (field : String) (hint : Option String)
    (v : Value) {bound : String} (hcomma : ',' ∉ bound.toList) :
    (s.checkField ⟨field, v, r.word ++ "=" ++ bound, hint⟩).report.failures
      = ((s.failure? ⟨r.word, String.ofList (trim bound.toList)⟩ v).map (·.atField field)).toList := by
  have hcalls : Field.calls ⟨field, v, r.word ++ "=" ++ bound, hint⟩
      = [⟨r.word, String.ofList (trim bound.toList)⟩] := r.calls_token hcomma
  rw [Settings.failures_checkField, hcalls, Settings.failure?, Option.map_map]
  rfl

/-- **Length tokens are settled by the numeral and the length.** The token of a length rule bounds
the length of what its field holds, if the bound between the blanks is the numeral of a number below
2^64. The field then fails by its length exactly where it holds a text or a sequence whose length
breaks the bound, fails by its kind exactly where it holds anything else, and passes exactly where
it holds nothing or something of a good length. With any other bound the field fails by that bound
alone, whatever it holds. -/
theorem failures_token (r : LengthRule) (s : Settings) (field : String) (hint : Option String)
    (v : Value) {bound : String} (hcomma : ',' ∉ bound.toList) :
    let failures := (s.checkField ⟨field, v, r.word ++ "=" ++ bound, hint⟩).report.failures
    (∀ n < 2 ^ 64, Decimal.Denotes (trim bound.toList) n →
        (∀ actual, failures = [r.breach field n actual] ↔ v.HasLength actual ∧ r.Breaks n actual) ∧
        (∀ kind, failures = [r.unsupported field kind] ↔
          ∃ w, v.held? = some w ∧ w.kind = kind ∧ kind ≠ .string ∧ kind ≠ .sequence) ∧
        (failures = [] ↔ v.held? = none ∨ ∃ actual, v.HasLength actual ∧ ¬ r.Breaks n actual)) ∧
      ((∀ n < 2 ^ 64, ¬ Decimal.Denotes (trim bound.toList) n) →
        failures = [r.invalid field (String.ofList (trim bound.toList))]) := by
  intro failures
  have hfailures := r.failures_field s field hint v hcomma
  have hoptions : (String.ofList (trim bound.toList)).toList = trim bound.toList :=
    String.toList_ofList
  refine ⟨?_, ?_⟩
  · intro n hn hdenotes
    have hsize : (UInt64.ofNat n).toNat = n := UInt64.toNat_ofNat_of_lt' hn
    have hread : Decimal.readSize? (trim bound.toList) = some (UInt64.ofNat n) := by
      rw [Decimal.readSize?_eq_some_iff, hsize]
      exact hdenotes
    have hrule : Spec.Call.rule s.custom ⟨r.word, String.ofList (trim bound.toList)⟩
        = .ok (r.rule (UInt64.ofNat n)) := r.rule_of_readSize? (by rw [hoptions, hread])
    have h := r.failure?_iff (UInt64.ofNat n) field v
    rw [hsize] at h
    rw [Settings.failure?_of_rule_eq_ok hrule] at hfailures
    simp only [failures, hfailures, Option.toList_eq_singleton_iff, Option.toList_eq_nil_iff]
    exact h
  · intro hnot
    have hread : Decimal.readSize? (trim bound.toList) = none :=
      Decimal.readSize?_eq_none_iff.2 hnot
    show (s.checkField _).report.failures = _
    rw [hfailures, r.failure?_of_unreadable (by rw [hoptions, hread])]
    rfl

/-- The largest size and the number after it, of a text of three characters behind two optionals. -/
theorem failures_token_largest :
    let held : Value := .present (.present (.text "äöü"))
    let atLeast (bound : String) : Field := ⟨"name", held, min.word ++ "=" ++ bound, none⟩
    let atMost (bound : String) : Field := ⟨"name", held, max.word ++ "=" ++ bound, none⟩
    Decimal.Denotes (trim " +018446744073709551615 ".toList) (2 ^ 64 - 1) ∧
      held.HasLength 3 ∧ min.Breaks (2 ^ 64 - 1) 3 ∧
      (Settings.checkField ⟨none, .reject⟩ (atLeast " +018446744073709551615 ")).report.failures
        = [min.breach "name" (2 ^ 64 - 1) 3] ∧
      (∀ n < 2 ^ 64, ¬ Decimal.Denotes (trim "18446744073709551616".toList) n) ∧
      (Settings.checkField ⟨some .relaxed, .ignore⟩ (atMost "18446744073709551616")).report.failures
        = [max.invalid "name" "18446744073709551616"] := by
  intro held atLeast atMost
  have hread : Decimal.readSize? (trim " +018446744073709551615 ".toList)
      = some 18446744073709551615 := by decide +kernel
  have hdenotes : Decimal.Denotes (trim " +018446744073709551615 ".toList) (2 ^ 64 - 1) :=
    Decimal.readSize?_eq_some_iff.1 hread
  have hnot : ∀ n < 2 ^ 64, ¬ Decimal.Denotes (trim "18446744073709551616".toList) n :=
    Decimal.readSize?_eq_none_iff.1 (by decide +kernel)
  have hlength : held.HasLength 3 := .present (.present (.text "äöü"))
  have hbreaks : min.Breaks (2 ^ 64 - 1) 3 := by decide
  have hmin := @failures_token min ⟨none, .reject⟩ "name" none held
    " +018446744073709551615 " (by decide)
  have hmax := @failures_token max ⟨some .relaxed, .ignore⟩ "name" none held
    "18446744073709551616" (by decide)
  exact ⟨hdenotes, hlength, hbreaks,
    ((hmin.1 _ (by decide) hdenotes).1 3).2 ⟨hlength, hbreaks⟩, hnot, hmax.2 hnot⟩

end LengthRule

end RecordRules
