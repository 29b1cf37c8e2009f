/-
The last readable value of a setting counts.

Refining a policy goes through the options from left to right and changes one setting at a time.
What becomes of one setting does not depend on the others, so it can be followed alone.

Two option lists with a comma between them refine a policy one after the other: the policy that the
first makes of the custom one is the custom policy of the second. A list on top of itself changes
nothing, since the last readable value of a setting is the same the second time.

* **`Policy.value_refineBy`**, **`Policy.value_refine`** — one setting after one option, and after
  all of them;
* **`Setting.filterMap_given?`** — the parts of a list give what the pairs read from it give;
* **`Policy.effective_eq_settle`** — the policy of an option list is settled setting by setting;
* **`Policy.settle_of_idle`** — a part that neither spoils the list nor gives a value has no effect;
* **`Policy.effective_settles`** — both, for every option list and every custom policy;
* **`Policy.refine_refine`** — refining twice by the same pairs is refining once;
* **`Policy.effective_comma`** — the policy of two lists, one after the other;
* **`Policy.effective_layers`** — both laws for option lists, failures included.
-/
import Mathlib.Data.List.Basic
import RecordRules.Password.Precedence

namespace RecordRules.Password

open Text Options

/-! ### One setting at a time -/

namespace Setting

/-- The value that a pair gives to a setting. -/
def assigned? (s : Setting) (pair : Pair) : Option s.Value :=
  if String.ofList pair.1 = s.key then s.read? pair.2 else none

theorem given?_eq (s : Setting) (part : List Char) :
    s.given? part = (pair? part).bind s.assigned? := by
  unfold given? pair?
  cases cut '=' part <;> rfl

theorem assigned?_of_ofKey? {s t : Setting} {pair : Pair}
    (h : ofKey? (String.ofList pair.1) = some t) :
    s.assigned? pair = if t = s then s.read? pair.2 else none := by
  rw [assigned?, ← ofKey?_eq_some_iff.1 h]
  simp only [key_inj]

theorem assigned?_of_ofKey?_eq_none {s : Setting} {pair : Pair}
    (h : ofKey? (String.ofList pair.1) = none) : s.assigned? pair = none := by
  refine if_neg ?_
  intro hs
  rw [hs, ofKey?_key] at h
  cases h

end Setting

namespace Policy

/-- An option sets the setting that it gives a value to, and leaves all others alone. -/
theorem value_refineBy (p : Policy) (pair : Pair) (s : Setting) :
    (p.refineBy pair).value s = (s.assigned? pair).getD (p.value s) := by
  unfold refineBy
  cases h : Setting.ofKey? (String.ofList pair.1) with
  | none =>
    rw [Setting.assigned?_of_ofKey?_eq_none h]
    rfl
  | some t =>
    rw [Setting.assigned?_of_ofKey? h]
    -- `t` is the setting that the option is about, and `s` the one that is looked at
    cases t with
    | minLength =>
      show ((Decimal.readSize? pair.2).elim p p.withMinLength).value s = _
      cases hread : Decimal.readSize? pair.2 <;> cases s <;> simp [value, Setting.read?, hread]
    | requires c =>
      show ((Options.readFlag? pair.2).elim p (p.withClass c)).value s = _
      cases hread : Options.readFlag? pair.2 with
      | none => cases s <;> simp [value, Setting.read?, hread]
      | some on =>
        cases s with
        | minLength => simp [value]
        | requires d =>
          by_cases hd : d = c
          · simp [value, Setting.read?, hread, hd]
          · simp [value, hd, Ne.symm hd]

/-- After some options a setting has the last value that one of them gives it. -/
theorem value_refine (p : Policy) (pairs : List Pair) (s : Setting) :
    (p.refine pairs).value s = ((pairs.filterMap s.assigned?).getLast?).getD (p.value s) := by
  -- from left to right, so the policy before the first option varies
  induction pairs generalizing p with
  | nil => rfl
  | cons pair pairs ih =>
    have hstep : p.refine (pair :: pairs) = (p.refineBy pair).refine pairs := rfl
    rw [hstep, ih, value_refineBy]
    cases hgiven : s.assigned? pair with
    | none => rw [List.filterMap_cons_none hgiven]; rfl
    | some v => rw [List.filterMap_cons_some hgiven, List.getLast?_cons]; rfl

end Policy

/-! ### Parts and pairs -/

theorem Setting.given?_of_blank (s : Setting) {part : List Char} (h : trim part = []) :
    s.given? part = none := by
  rw [given?_eq, ← pair?_trim, h]
  rfl

/-- The parts of an option list give a setting what the pairs read from it give. -/
theorem Setting.filterMap_given? (s : Setting) {text : List Char} {ps : List Pair}
    (h : pairs text = .ok ps) :
    (pieces ',' text).filterMap s.given? = ps.filterMap s.assigned? := by
  have hparts : (parts text).map pair? = ps.map some := pairs_eq_ok_iff.1 h
  -- trimming a part changes nothing, and neither does dropping one that is blank
  have hgiven : (pieces ',' text).filterMap s.given? = (parts text).filterMap s.given? := by
    rw [parts, List.filterMap_filter, List.filterMap_map]
    refine List.filterMap_congr ?_
    intro part _
    by_cases hblank : trim part = []
    · simp [hblank, s.given?_of_blank hblank]
    · simp [hblank, given?_eq, pair?_trim]
  calc (pieces ',' text).filterMap s.given?
      = (parts text).filterMap s.given? := hgiven
    _ = ((parts text).map pair?).filterMap (·.bind s.assigned?) := by
        rw [List.filterMap_map]
        exact List.filterMap_congr fun part _ => s.given?_eq part
    _ = ps.filterMap s.assigned? := by rw [hparts, List.filterMap_map]; rfl

namespace Policy

/-- A list is spoilt by the first part that is neither blank nor has an equals sign. -/
theorem find?_parts (text : List Char) :
    (parts text).find? (fun part => '=' ∉ part) = ((pieces ',' text).find? isSpoilt).map trim := by
  have hequals : ∀ part, '=' ∈ trim part ↔ '=' ∈ part := fun part =>
    mem_trimEnds_iff (p := isBlank) (by decide)
  rw [Options.find?_parts]
  simp only [hequals]
  rfl

theorem find?_isSpoilt_of_pairs {text : List Char} {ps : List Pair} (h : pairs text = .ok ps) :
    (pieces ',' text).find? isSpoilt = none := by
  have hspoilt := find?_parts text
  cases hfind : (pieces ',' text).find? isSpoilt with
  | none => rfl
  | some piece =>
    rw [hfind] at hspoilt
    rw [pairs_eq_error_iff.2 hspoilt] at h
    cases h

/-- **The policy of an option list is settled setting by setting.** -/
theorem effective_eq_settle (options : String) (custom : Option Policy) :
    effective options custom = settle (pieces ',' options.toList) custom := by
  have hspoilt := find?_parts options.toList
  rw [effective_eq, settle]
  cases hpairs : pairs options.toList with
  | error part =>
    rw [pairs_eq_error_iff.1 hpairs] at hspoilt
    obtain ⟨piece, hpiece, rfl⟩ := Option.map_eq_some_iff.1 hspoilt.symm
    rw [hpiece]
  | ok ps =>
    rw [find?_isSpoilt_of_pairs hpairs]
    refine congrArg Except.ok (ext_value ?_)
    intro s
    rw [value_ofValues, value_refine, Setting.lastGiven?, s.filterMap_given? hpairs]

/-! ### Parts without effect -/

/-- A part that neither spoils the list nor gives a setting a value has no effect. -/
theorem settle_of_idle {part : List Char} (hspoilt : isSpoilt part = false)
    (hidle : ∀ s : Setting, s.given? part = none) (before after : List (List Char))
    (custom : Option Policy) :
    settle (before ++ part :: after) custom = settle (before ++ after) custom := by
  have hlast : ∀ s : Setting, s.lastGiven? (before ++ part :: after)
      = s.lastGiven? (before ++ after) := by
    intro s
    simp only [Setting.lastGiven?, List.filterMap_append, List.filterMap_cons_none (hidle s)]
  have hfind : (before ++ part :: after).find? isSpoilt = (before ++ after).find? isSpoilt := by
    rw [List.find?_append, List.find?_append, List.find?_cons_of_neg (by simp [hspoilt])]
  simp only [settle, hlast, hfind]

/-- The option list that joins some parts is settled by these parts. -/
theorem effective_intercalate {ps : List (List Char)} (h : ∀ part ∈ ps, ',' ∉ part)
    (custom : Option Policy) :
    effective (String.ofList ([','].intercalate ps)) custom = settle ps custom := by
  rw [effective_eq_settle, String.toList_ofList]
  by_cases hne : ps = []
  · -- the empty list has one part, and it is blank
    have hblank : ∀ s : Setting, s.given? [] = none := fun s => s.given?_of_blank rfl
    rw [hne]
    exact settle_of_idle rfl hblank [] [] custom
  · rw [pieces_intercalate hne h]

/-- **The last readable value of a setting counts.** An option list is bad by its first part that is
neither blank nor has an equals sign. Otherwise each setting has, whatever the others have, the last
value that a part gives it, or that of the custom policy, or of the standard one. A part that does
not spoil the list and gives no setting a value can be left out, wherever it stands. -/
theorem effective_settles (custom : Option Policy) :
    (∀ options, effective options custom = settle (pieces ',' options.toList) custom) ∧
      ∀ (before after : List (List Char)) (part : List Char),
        (∀ p ∈ before ++ part :: after, ',' ∉ p) → isSpoilt part = false →
        (∀ s : Setting, s.given? part = none) →
        effective (String.ofList ([','].intercalate (before ++ part :: after))) custom
          = effective (String.ofList ([','].intercalate (before ++ after))) custom := by
  refine ⟨fun options => effective_eq_settle options custom, ?_⟩
  intro before after part hcomma hspoilt hidle
  have hcomma' : ∀ p ∈ before ++ after, ',' ∉ p := by
    intro p hp
    refine hcomma p ?_
    rw [List.mem_append] at hp ⊢
    exact hp.imp_right (List.mem_cons_of_mem part)
  rw [effective_intercalate hcomma, effective_intercalate hcomma', settle_of_idle hspoilt hidle]

/-- A key that is no setting has no effect between two that are. -/
theorem effective_settles_colour :
    effective "min_length=12,colour=blue,require_digits=f" (some relaxed)
      = effective "min_length=12,require_digits=f" (some relaxed) := by
  have hidle : ∀ s : Setting, s.given? "colour=blue".toList = none := by decide +kernel
  have hwith : "min_length=12,colour=blue,require_digits=f"
      = String.ofList ([','].intercalate (["min_length=12".toList]
          ++ "colour=blue".toList :: ["require_digits=f".toList])) := by decide +kernel
  have hwithout : "min_length=12,require_digits=f"
      = String.ofList ([','].intercalate (["min_length=12".toList]
          ++ ["require_digits=f".toList])) := by decide +kernel
  rw [hwith, hwithout]
  exact (effective_settles (some relaxed)).2 _ _ _ (by decide +kernel) (by decide +kernel) hidle

/-! ### Layers -/

/-- Each setting has the last value that a pair gives it, or keeps its own. After the first round
its own is that last value already. -/
theorem refine_refine (p : Policy) (pairs : List Pair) :
    (p.refine pairs).refine pairs = p.refine pairs := by
  refine ext_value ?_
  intro s
  rw [value_refine, value_refine]
  cases (pairs.filterMap s.assigned?).getLast? with
  | none => rfl
  | some v => rfl

theorem effective_comma (a b : String) (custom : Option Policy) :
    effective (a ++ "," ++ b) custom
      = (effective a custom).bind fun p => effective b (some p) := by
  have htext : (a ++ "," ++ b).toList = a.toList ++ ',' :: b.toList := by simp
  simp only [effective_eq, htext, pairs_append_cons]
  -- a list that is spoilt stops the reading, so the first one's fault hides the second one's
  cases pairs a.toList with
  | error part => rfl
  | ok ps =>
    cases pairs b.toList with
    | error part => rfl
    | ok qs => exact congrArg Except.ok (refine_append _ ps qs)

theorem effective_of_eq_ok {options : String} {custom : Option Policy} {p : Policy}
    (h : effective options custom = .ok p) : effective options (some p) = .ok p := by
  rw [effective_eq] at h ⊢
  cases hpairs : pairs options.toList with
  | error part =>
    rw [hpairs] at h
    cases h
  | ok ps =>
    rw [hpairs] at h
    cases h
    exact congrArg Except.ok (refine_refine _ ps)

/-- **Option lists are layers.** Two lists with a comma between them, either of which may be empty,
have the policy that the second one makes of the first one's policy; a fault of the first is told
before one of the second. A list that is applied to its own policy leaves it as it is. -/
theorem effective_layers (custom : Option Policy) :
    (∀ a b : String, effective (a ++ "," ++ b) custom = do
      let p ← effective a custom
      effective b (some p)) ∧
      ∀ (options : String) (p : Policy),
        effective options custom = .ok p → effective options (some p) = .ok p := by
  refine ⟨?_, ?_⟩
  · intro a b
    exact effective_comma a b custom
  · intro options p h
    exact effective_of_eq_ok h

/-- A later value that cannot be read does not undo an earlier one, the second time no more than the
first. -/
theorem effective_layers_unreadable :
    effective "min_length=12,require_digits=1,min_length=many" (some relaxed)
        = .ok ⟨12, true, false, false, false⟩ ∧
      effective "min_length=12,require_digits=1,min_length=many"
          (some ⟨12, true, false, false, false⟩)
        = .ok ⟨12, true, false, false, false⟩ := by
  have h : effective "min_length=12,require_digits=1,min_length=many" (some relaxed)
      = .ok ⟨12, true, false, false, false⟩ := by
    decide +kernel
  exact ⟨h, (effective_layers (some relaxed)).2 _ _ h⟩

end Policy

end RecordRules.Password
