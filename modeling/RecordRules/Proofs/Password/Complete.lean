/-
A complete option list leaves nothing to the custom policy.

A written policy gives every setting its value once, in whatever order. As the options of a password
rule it stays in one piece: its parts are the tokens that a group takes, and neither end of it is
trimmed.

* **`Policy.Spelling.effective_write`** — the policy of a written policy is that policy, whatever
  the custom one;
* **`Policy.Spelling.wellFormed_call`** — a written policy is the options of a well-formed call;
* **`Spec.calls_ofText_append`** — a well-formed call before another text makes that call, and then
  those of the text;
* **`Policy.Spelling.overrides_custom`** — so a password rule with all settings makes its own call
  before those of any text that follows it, and finds what its own policy finds.
-/
import RecordRules.Pass.Check
import RecordRules.Proofs.Password.Precedence
import RecordRules.Proofs.Spec.RoundTrip

namespace RecordRules

open Text

/-- Joined texts are not trimmed, if their own characters are all kept. -/
theorem Text.trimEnds_intercalate {sep : Char} {q : Char → Bool} {parts : List (List Char)}
    (hne : ∀ part ∈ parts, part ≠ []) (hkeep : ∀ part ∈ parts, ∀ c ∈ part, q c = false) :
    trimEnds q ([sep].intercalate parts) = [sep].intercalate parts := by
  refine trimEnds_eq_self_iff.2 ⟨?_, ?_⟩
  · cases parts with
    | nil => simp
    | cons first more =>
      intro c hc
      obtain ⟨d, first, rfl⟩ := List.exists_cons_of_ne_nil (hne first List.mem_cons_self)
      rw [intercalate_cons] at hc
      obtain rfl : d = c := by simpa using hc
      exact hkeep _ List.mem_cons_self d List.mem_cons_self
  · rcases List.eq_nil_or_concat parts with rfl | ⟨init, last, rfl⟩
    · simp
    · intro c hc
      rw [List.concat_eq_append] at hne hkeep hc
      have hlast : last ∈ init ++ [last] := by simp
      obtain ⟨before, hjoin⟩ := exists_intercalate_concat sep init
      rw [hjoin last, List.getLast?_append_of_ne_nil _ (hne last hlast)] at hc
      exact hkeep last hlast c (List.mem_of_getLast? hc)

/-! ### The characters of written policies -/

/-- Whether a text has neither commas nor blanks. -/
def Spec.isTight (s : List Char) : Bool := s.all fun c => !isGroupEnd c

theorem Spec.isTight_iff {s : List Char} :
    isTight s = true ↔ ∀ c ∈ s, isGroupEnd c = false := by
  simp [isTight]

theorem Options.isGroupEnd_of_readFlag? {s : List Char} {b : Bool} (h : readFlag? s = some b) :
    ∀ c ∈ s, Spec.isGroupEnd c = false := by
  obtain ⟨word, hword, rfl⟩ := readFlag?_eq_some_iff.1 h
  have hall : ∀ b, ∀ word ∈ spellings b, Spec.isTight word.toList = true := by decide
  exact Spec.isTight_iff.1 (hall b word hword)

theorem Spec.isBlank_of_isGroupEnd {c : Char} (h : isGroupEnd c = false) : isBlank c = false :=
  (Bool.or_eq_false_iff.1 h).2

theorem Spec.isGroupEnd_of_isDigit {c : Char} (h : c.isDigit = true) : isGroupEnd c = false := by
  have hcode : 48 ≤ c.toNat ∧ c.toNat ≤ 57 := by
    simpa [Char.isDigit, UInt32.le_iff_toNat_le] using h
  have hcomma : c ≠ ',' := by
    rintro rfl
    exact absurd h (by decide)
  have hblank : isBlank c = false := by
    simp [isBlank]
    omega
  simp [isGroupEnd, hcomma, hblank]

namespace Password

theorem Setting.isGroupEnd_of_mem_key (s : Setting) :
    ∀ c ∈ s.key.toList, Spec.isGroupEnd c = false := by
  have hall : ∀ s : Setting, Spec.isTight s.key.toList = true := by decide
  exact Spec.isTight_iff.1 (hall s)

theorem Setting.trim_key (s : Setting) : trim s.key.toList = s.key.toList := by
  refine trimEnds_of_kept ?_
  intro c hc
  exact Spec.isBlank_of_isGroupEnd (s.isGroupEnd_of_mem_key c hc)

theorem Setting.equals_not_mem_key (s : Setting) : '=' ∉ s.key.toList := by
  have hall : ∀ s : Setting, '=' ∉ s.key.toList := by decide
  exact hall s

namespace Policy.Spelling

variable {p : Policy} (spelling : p.Spelling)

theorem isGroupEnd_of_mem_text (s : Setting) :
    ∀ c ∈ spelling.text s, Spec.isGroupEnd c = false := by
  cases s with
  | minLength =>
    intro c hc
    have hdigits := List.all_eq_true.1 (Decimal.all_isDigit_write p.minLength.toNat)
    exact Spec.isGroupEnd_of_isDigit (hdigits c hc)
  | requires c => exact Options.isGroupEnd_of_readFlag? (spelling.readFlag?_flag c)

theorem trim_text (s : Setting) : trim (spelling.text s) = spelling.text s := by
  refine trimEnds_of_kept ?_
  intro c hc
  exact Spec.isBlank_of_isGroupEnd (spelling.isGroupEnd_of_mem_text s c hc)

theorem isGroupEnd_of_mem_part (s : Setting) :
    ∀ c ∈ spelling.part s, Spec.isGroupEnd c = false := by
  intro c hc
  rcases List.mem_append.1 hc with hkey | hc
  · exact s.isGroupEnd_of_mem_key c hkey
  · rcases List.mem_cons.1 hc with rfl | htext
    · rfl
    · exact spelling.isGroupEnd_of_mem_text s c htext

theorem comma_not_mem_part (s : Setting) : ',' ∉ spelling.part s := by
  intro hmem
  exact absurd (spelling.isGroupEnd_of_mem_part s _ hmem) (by decide)

theorem part_ne_nil (s : Setting) : spelling.part s ≠ [] := by
  simp [part, Options.writePair]

theorem isSpoilt_part (s : Setting) : isSpoilt (spelling.part s) = false := by
  simp [isSpoilt, part, Options.writePair]

theorem isAssignment_part (s : Setting) : Setting.isAssignment (spelling.part s) = true := by
  refine Setting.isAssignment_iff.2 ⟨s.key.toList, spelling.text s, rfl, s.equals_not_mem_key, ?_⟩
  rw [s.trim_key, String.ofList_toList, Setting.ofKey?_key]
  rfl

/-- A part gives its value to its own setting and to no other. -/
theorem given?_part (s t : Setting) :
    s.given? (spelling.part t) = if t = s then some (p.value s) else none := by
  have hcut : cut '=' (spelling.part t) = some (t.key.toList, spelling.text t) :=
    cut_append_cons t.equals_not_mem_key
  simp only [Setting.given?, hcut, t.trim_key, spelling.trim_text, String.ofList_toList,
    Setting.key_inj]
  by_cases h : t = s
  · subst h
    rw [if_pos rfl, if_pos rfl, spelling.read?_text]
  · rw [if_neg h, if_neg h]

/-! ### The policy of a written policy -/

variable {spelling} {settings : List Options.Pair}

/-- What holds of the parts of all settings holds of the parts of a written policy. -/
theorem forall_part (horder : settings.Perm spelling.pairs) {P : List Char → Prop}
    (h : ∀ s, P (spelling.part s)) : ∀ part ∈ settings.map Options.writePair, P part := by
  intro part hpart
  obtain ⟨pair, hpair, rfl⟩ := List.mem_map.1 hpart
  obtain ⟨s, -, rfl⟩ := List.mem_map.1 (horder.mem_iff.1 hpair)
  exact h s

theorem lastGiven?_write (horder : settings.Perm spelling.pairs) (s : Setting) :
    s.lastGiven? (settings.map Options.writePair) = some (p.value s) := by
  have hfunction : (s.given? ∘ Options.writePair) ∘ (fun t => (t.key.toList, spelling.text t))
      = fun t => if t = s then some (p.value s) else none :=
    funext fun t => spelling.given?_part s t
  have hone : (spelling.pairs.map Options.writePair).filterMap s.given? = [p.value s] := by
    rw [pairs, List.filterMap_map, List.filterMap_map, hfunction]
    -- among all settings there is this one, once
    rcases s with _ | c
    · rfl
    · cases c <;> rfl
  have hperm := (horder.map Options.writePair).filterMap s.given?
  rw [hone, List.perm_singleton] at hperm
  rw [Setting.lastGiven?, hperm]
  rfl

/-- The policy of a written policy is that policy, whatever the custom one. -/
theorem effective_write (horder : settings.Perm spelling.pairs) (custom : Option Policy) :
    effective (String.ofList (Options.write settings)) custom = .ok p := by
  have hspoilt : (settings.map Options.writePair).find? isSpoilt = none :=
    List.find?_eq_none.2 (forall_part horder fun s => by simp [spelling.isSpoilt_part s])
  rw [Options.write, effective_intercalate (forall_part horder spelling.comma_not_mem_part),
    settle, hspoilt]
  simp only [lastGiven?_write horder, Option.getD_some]
  rw [ofValues_value]

/-! ### The call of a written policy -/

theorem ne_nil_of_perm (horder : settings.Perm spelling.pairs) : settings ≠ [] := by
  rintro rfl
  cases horder.length_eq

theorem write_ne_nil (horder : settings.Perm spelling.pairs) : Options.write settings ≠ [] := by
  obtain ⟨pair, more, rfl⟩ := List.exists_cons_of_ne_nil (ne_nil_of_perm horder)
  simp [Options.write, intercalate_cons, Options.writePair]

/-- A written policy can be the options of a password rule: neither end is trimmed, and all of its
parts assign a setting. -/
theorem wellFormed_call (horder : settings.Perm spelling.pairs) :
    (⟨"password", String.ofList (Options.write settings)⟩ : Spec.Call).WellFormed := by
  have hne : settings.map Options.writePair ≠ [] := by simpa using ne_nil_of_perm horder
  have hpieces : pieces ',' (Options.write settings) = settings.map Options.writePair :=
    pieces_intercalate hne (forall_part horder spelling.comma_not_mem_part)
  constructor <;> simp only [String.toList_ofList]
  · decide
  · decide
  · decide
  · decide
  · intro hname
    exact absurd rfl hname
  · intro _
    refine ⟨trimEnds_intercalate ?_ ?_, ?_⟩
    · exact forall_part horder spelling.part_ne_nil
    · exact forall_part horder spelling.isGroupEnd_of_mem_part
    · have hassign : ∀ part ∈ settings.map Options.writePair, Setting.isAssignment part = true :=
        forall_part horder spelling.isAssignment_part
      rw [hpieces]
      exact fun part hpart => hassign part (List.mem_of_mem_tail hpart)

end Policy.Spelling

end Password

/-! ### A call before another text -/

namespace Spec

theorem Call.rule_of_effective {custom : Option Password.Policy} {c : Call} {p : Password.Policy}
    (hname : c.ruleName? = some .password)
    (h : Password.Policy.effective c.options custom = .ok p) :
    c.rule custom = .ok (.password p) := by
  rw [rule, hname]
  simp only [h]

theorem password_append {options : String} (h : options.toList ≠ []) :
    "password=" ++ options = String.ofList (Call.write ⟨"password", options⟩) := by
  refine String.toList_inj.1 ?_
  rw [String.toList_append, String.toList_ofList, Call.write_of_options_ne h]
  simp

/-- A well-formed call and a comma before another text make that call and those of the text, unless
the text begins with an assignment, which the call could take. -/
theorem calls_ofText_append {c : Call} (h : c.WellFormed) {tail : String}
    (htail : ∀ token ∈ (pieces ',' tail.toList).head?,
      Password.Setting.isAssignment token = false) :
    (ofText (String.ofList c.write ++ "," ++ tail)).calls = c :: (ofText tail).calls := by
  rw [calls_comma, String.toList_ofList, ofTokens_write h htail, calls_eq_ofTokens]

end Spec

/-! ### Complete inline policies -/

namespace Password.Policy.Spelling

/-- **A complete option list leaves nothing to the custom policy.** Write all settings of a policy,
in any order, each truth value in any spelling. A password rule with these options, before any text
that does not begin with an assignment itself, makes its own call and then those of the text; an
empty text begins with the empty token, which assigns nothing. Under every custom policy, and without
one, the check of that call fails as the rule of the written policy does. -/
theorem overrides_custom {p : Policy} (spelling : p.Spelling) {settings : List Options.Pair}
    (horder : settings.Perm spelling.pairs) (tail : String)
    (htail : ∀ token ∈ (pieces ',' tail.toList).head?, Setting.isAssignment token = false) :
    let options := String.ofList (Options.write settings)
    (Spec.ofText ("password=" ++ options ++ "," ++ tail)).calls
        = ⟨"password", options⟩ :: (Spec.ofText tail).calls ∧
      ∀ (s : Settings) (v : Value), s.failure? ⟨"password", options⟩ v
        = ((Rule.password p).violation? v).map Violation.toFailure := by
  intro options
  refine ⟨?_, ?_⟩
  · have hcall := wellFormed_call horder
    have hoptions : options.toList ≠ [] := by simpa [options] using write_ne_nil horder
    rw [Spec.password_append hoptions, Spec.calls_ofText_append hcall htail]
  · intro s v
    have hname : Spec.Call.ruleName? ⟨"password", options⟩ = some .password :=
      RuleName.ofText?_text .password
    have hrule : Spec.Call.rule s.custom ⟨"password", options⟩ = .ok (.password p) :=
      Spec.Call.rule_of_effective hname (effective_write horder s.custom)
    exact Settings.failure?_of_rule_eq_ok hrule v

/-- The greatest size, all settings from last to first, and spellings of four kinds: not even the
relaxed custom policy has a say. -/
theorem overrides_custom_reversed :
    let options := "require_special_chars=0,require_lowercase=1,require_uppercase=False,"
      ++ "require_digits=T,min_length=18446744073709551615"
    (Spec.ofText ("password=" ++ options ++ "," ++ "max_length=20")).calls
        = ⟨"password", options⟩ :: (Spec.ofText "max_length=20").calls ∧
      ∀ v : Value, Settings.failure? ⟨some relaxed, .ignore⟩ ⟨"password", options⟩ v
        = ((Rule.password ⟨18446744073709551615, true, false, true, false⟩).violation? v).map
            Violation.toFailure := by
  intro options
  let p : Policy := ⟨18446744073709551615, true, false, true, false⟩
  let flag (c : CharClass) : List Char :=
    if c = .digit then "T".toList else if c = .uppercase then "False".toList
    else if c = .lowercase then "1".toList else "0".toList
  let spelling : p.Spelling := ⟨flag, by intro c; cases c <;> decide +kernel⟩
  have hoptions : options = String.ofList (Options.write spelling.pairs.reverse) := by
    decide +kernel
  have h := overrides_custom spelling (List.reverse_perm spelling.pairs) "max_length=20"
    (by decide +kernel)
  rw [hoptions]
  exact ⟨h.1, h.2 ⟨some relaxed, .ignore⟩⟩

end Password.Policy.Spelling

end RecordRules
