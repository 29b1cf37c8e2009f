/-
What a group takes, its options can use.

A group takes a token because a setting's key stands before the token's first equals sign. The
options are read later, from the tokens joined again and trimmed. Both views agree: of the parts of
a group's options, all but the first give a pair with a setting's key. So a fault can only be in the
first part, the rest of the token that opens the group.

* **`Setting.exists_pair?_of_isAssignment`** — the pair of an assignment has the key of a setting;
* **`Policy.forall_refineBy_eq_iff`** — such a pair is passed over exactly where its value cannot be
  read;
* **`trim_first_ne_nil`** — the first part of a group's options is not blank, if there are any;
* **`Call.WellFormed.effective_eq_error_iff`** — so it is the one that can spoil them;
* **`taken_parts_are_settings`** — all of this, for the groups of every rule text.
-/
import RecordRules.Proofs.Password.Precedence
import RecordRules.Proofs.Spec.RoundTrip

namespace RecordRules

open Text

/-! ### Pairs of assignments -/

namespace Password

/-- The pair that an assignment gives has the key of a setting. -/
theorem Setting.exists_pair?_of_isAssignment {part : List Char} (h : isAssignment part = true) :
    ∃ (s : Setting) (value : List Char),
      Options.pair? (trim part) = some (s.key.toList, value) := by
  obtain ⟨s, key, value, rfl, hkey, htrim⟩ := exists_key_of_isAssignment h
  refine ⟨s, trim value, ?_⟩
  rw [Options.pair?_trim, Options.pair?, cut_append_cons hkey, ← htrim]
  rfl

theorem Setting.assigned?_key (s t : Setting) (value : List Char) :
    t.assigned? (s.key.toList, value) = if s = t then t.read? value else none := by
  refine assigned?_of_ofKey? ?_
  rw [String.ofList_toList, ofKey?_key]

/-- Every value of a setting is one that some policy does not have. -/
theorem Policy.exists_value_ne (s : Setting) (v : s.Value) : ∃ p : Policy, p.value s ≠ v := by
  cases s with
  | minLength =>
    refine ⟨relaxed.withMinLength (v + 1), ?_⟩
    show v + 1 ≠ v
    simp
  | requires c =>
    refine ⟨relaxed.withClass c (!v), ?_⟩
    show (relaxed.withClass c (!v)).requires c ≠ v
    simp

/-- A pair with a setting's key is passed over exactly where its value cannot be read. -/
theorem Policy.forall_refineBy_eq_iff {s : Setting} {value : List Char} :
    (∀ p : Policy, p.refineBy (s.key.toList, value) = p) ↔ s.read? value = none := by
  constructor
  · intro h
    cases hread : s.read? value with
    | none => rfl
    | some v =>
      -- a policy with another value would be given this one
      obtain ⟨p, hp⟩ := exists_value_ne s v
      have hvalue := value_refineBy p (s.key.toList, value) s
      rw [h p, s.assigned?_key, if_pos rfl, hread] at hvalue
      exact absurd hvalue hp
  · intro hread p
    refine ext_value ?_
    intro t
    rw [value_refineBy, s.assigned?_key]
    by_cases hst : s = t
    · subst hst
      rw [if_pos rfl, hread]
      rfl
    · rw [if_neg hst]
      rfl

theorem Policy.isSpoilt_of_isAssignment {part : List Char}
    (h : Setting.isAssignment part = true) : isSpoilt part = false := by
  obtain ⟨s, key, value, rfl, -, -⟩ := Setting.exists_key_of_isAssignment h
  simp [isSpoilt]

end Password

/-! ### Options of groups -/

namespace Spec

open Password

/-- Neither a comma nor a blank begins the options of a group, so they do not begin with a blank
part. -/
theorem trim_first_ne_nil {options first : List Char} {rest : List (List Char)}
    (htrim : trimEnds isGroupEnd options = options) (hne : options ≠ [])
    (hpieces : pieces ',' options = first :: rest) : trim first ≠ [] := by
  obtain ⟨c, more, rfl⟩ := List.exists_cons_of_ne_nil hne
  have hc : isGroupEnd c = false := (trimEnds_eq_self_iff.1 htrim).1 c rfl
  obtain ⟨hcomma, hblank⟩ := Bool.or_eq_false_iff.1 hc
  obtain ⟨piece, others, -, hcons⟩ := pieces_cons_of_ne (of_decide_eq_false hcomma) more
  rw [hpieces, List.cons.injEq] at hcons
  rw [hcons.1]
  exact List.ne_nil_of_mem ((mem_trimEnds_iff hblank).2 List.mem_cons_self)

/-- The options of a group are bad exactly where there are any and their first part has no equals
sign, and they are bad by that part. -/
theorem Call.WellFormed.effective_eq_error_iff {c : Call} (h : c.WellFormed)
    (hname : c.name.toList = groupName) {first : List Char} {rest : List (List Char)}
    (hpieces : pieces ',' c.options.toList = first :: rest) (custom : Option Policy)
    (bad : Policy.BadOptions) :
    Policy.effective c.options custom = .error bad ↔
      c.options ≠ "" ∧ '=' ∉ first ∧ bad = ⟨String.ofList (trim first)⟩ := by
  obtain ⟨htrim, hassign⟩ := h.group_options hname
  have hrest : rest.find? Policy.isSpoilt = none := by
    rw [List.find?_eq_none]
    intro part hpart
    rw [hpieces] at hassign
    simp [Policy.isSpoilt_of_isAssignment (hassign part hpart)]
  have hspoilt : Policy.isSpoilt first = true ↔ c.options ≠ "" ∧ '=' ∉ first := by
    rw [Policy.isSpoilt, Bool.and_eq_true, decide_eq_true_eq, decide_eq_true_eq]
    refine and_congr_left fun _ => ⟨?_, ?_⟩
    · intro hfirst hempty
      rw [hempty] at hpieces
      obtain rfl : first = [] := (List.cons.inj hpieces).1.symm
      exact hfirst rfl
    · intro hne
      exact trim_first_ne_nil htrim (by simpa using hne) hpieces
  rw [Policy.effective_eq_settle, hpieces, Policy.settle, ← and_assoc, ← hspoilt]
  cases hfirst : Policy.isSpoilt first with
  | false => simp [hfirst, hrest]
  | true => simp [hfirst, eq_comm]

/-- **What a group takes, its options can use.** The options of a password rule have a first part
and further ones. They are bad exactly where they are not empty and the first part has no equals
sign, and it is the first part, trimmed, that is told. Every further part is read as a pair with the
key of a setting, so it never makes the options bad, and it is passed over, by every policy alike,
only where the setting cannot have its value. -/
theorem taken_parts_are_settings (text : String) (custom : Option Policy) :
    ∀ c ∈ (ofText text).calls, c.name = "password" →
      ∃ first rest, pieces ',' c.options.toList = first :: rest ∧
        (∀ bad, Policy.effective c.options custom = .error bad ↔
          c.options ≠ "" ∧ '=' ∉ first ∧ bad = ⟨String.ofList (trim first)⟩) ∧
        ∀ part ∈ rest, ∃ (s : Setting) (value : List Char),
          Options.pair? (trim part) = some (s.key.toList, value) ∧
            ((∀ p : Policy, p.refineBy (s.key.toList, value) = p) ↔ s.read? value = none) := by
  intro c hc hname
  have hwell : c.WellFormed := wellFormed_of_mem_calls text c hc
  have hgroup : c.name.toList = groupName := congrArg String.toList hname
  obtain ⟨first, rest, hpieces⟩ := List.exists_cons_of_ne_nil (pieces_ne_nil ',' c.options.toList)
  refine ⟨first, rest, hpieces, hwell.effective_eq_error_iff hgroup hpieces custom, ?_⟩
  intro part hpart
  have hassign := (hwell.group_options hgroup).2
  rw [hpieces] at hassign
  obtain ⟨s, value, hpair⟩ := Setting.exists_pair?_of_isAssignment (hassign part hpart)
  exact ⟨s, value, hpair, Policy.forall_refineBy_eq_iff⟩

/-- The token that opens the group gives a bad part, and takes the next two all the same; that one
of them has no readable value is not told. -/
theorem taken_parts_are_settings_bare_key :
    let c : Call := ⟨"password", "require_digits,min_length=many, require_digits = 0"⟩
    c ∈ (ofText "password= require_digits,min_length=many, require_digits = 0 ,email").calls ∧
      c.name = "password" ∧
      Policy.effective c.options (some .relaxed) = .error ⟨"require_digits"⟩ := by
  intro c
  have hmem : c
      ∈ (ofText "password= require_digits,min_length=many, require_digits = 0 ,email").calls := by
    decide +kernel
  have hparts : pieces ',' c.options.toList = "require_digits".toList
      :: ["min_length=many".toList, " require_digits = 0".toList] := by decide +kernel
  obtain ⟨first, rest, hpieces, herror, -⟩ :=
    taken_parts_are_settings _ (some .relaxed) c hmem rfl
  obtain rfl : "require_digits".toList = first := (List.cons.inj (hparts.symm.trans hpieces)).1
  exact ⟨hmem, rfl, (herror _).2 (by decide +kernel)⟩

end Spec

end RecordRules
