/-
What the readers of single values take.

A reader meets a description of written values if it takes exactly the values so described, each up
to its end, and refuses every other value. The value is any that the grammar has.

* **`begins_of_tokens`** — the first token of a value tells what the value is;
* **`Meets.map`**, **`Meets.optional`** — readers that are made from others;
* **`meets_size`**, **`meets_flag`**, **`meets_choice`** — sizes, truth values and choices.
-/
import RecordRules.Document
import RecordRules.Document.Form
import RecordRules.Proofs.Document.Given
import RecordRules.Proofs.Json.Lexing

namespace RecordRules.Document

open Json

variable {v rest : List Char} {ts : List Token}

/-! ### The first token of a value -/

/-- What the first token of a value tells about the value and the tokens after the first. -/
def Begins (v rest : List Char) (ts : List Token) : Token → Prop
  | .null => v = "null".toList ∧ ts = tokens rest
  | .bool b => v = (if b then "true" else "false").toList ∧ ts = tokens rest
  | .number (.natural n) => IsSize v n ∧ ts = tokens rest
  | .number _ | .unfit _ => True
  | .text t => (∃ w, v = quoted w ∧ Spells t.toList w) ∧ ts = tokens rest
  | .opening .square => ∃ values, IsList values v
  | .opening .curly => ∃ members, IsObject members v
  | .closing _ | .comma | .colon | .broken _ _ _ => False

theorem exists_begins (h : IsValue v) (hrest : Ends rest) :
    ∃ token ts, tokens (v ++ rest) = token :: ts ∧ Begins v rest ts token := by
  cases h with
  | null => exact ⟨_, _, tokens_null rest, rfl, rfl⟩
  | true => exact ⟨_, _, tokens_true rest, rfl, rfl⟩
  | false => exact ⟨_, _, tokens_false rest, rfl, rfl⟩
  | number h =>
    obtain ⟨token, htokens, rfl | ⟨n, rfl⟩, hsize⟩ := tokens_number h hrest
    · exact ⟨_, _, htokens, trivial⟩
    · refine ⟨_, _, htokens, ?_⟩
      cases n with
      | natural n => exact ⟨(hsize n).1 rfl, rfl⟩
      | negative | real => trivial
  | text h =>
    obtain ⟨t, ht, htokens⟩ | ⟨-, htokens⟩ := tokens_quoted h rest
    · exact ⟨_, _, htokens, ⟨_, rfl, by rwa [String.toList_ofList]⟩, rfl⟩
    · exact ⟨_, _, htokens, trivial⟩
  | list h =>
    obtain ⟨-, htokens⟩ | ⟨s, -, htokens⟩ := tokens_list h rest
    · exact ⟨_, _, htokens, _, h⟩
    · exact ⟨_, _, htokens, _, h⟩
  | object h =>
    obtain ⟨-, htokens⟩ | ⟨s, -, htokens⟩ := tokens_object h rest
    · exact ⟨_, _, htokens, _, h⟩
    · exact ⟨_, _, htokens, _, h⟩

/-- Whichever token comes first, it tells what it would. -/
theorem begins_of_tokens {token : Token} (h : IsValue v) (hrest : Ends rest)
    (htokens : tokens (v ++ rest) = token :: ts) : Begins v rest ts token := by
  obtain ⟨token', ts', htokens', hbegins⟩ := exists_begins h hrest
  obtain ⟨rfl, rfl⟩ := List.cons.inj (htokens.symm.trans htokens')
  exact hbegins

/-- Every value begins with a token that neither closes nor separates. -/
theorem exists_begins_ne (h : IsValue v) (hrest : Ends rest) :
    ∃ token ts, tokens (v ++ rest) = token :: ts ∧ (∀ b, token ≠ .closing b) ∧ token ≠ .comma := by
  obtain ⟨token, ts, htokens, hbegins⟩ := exists_begins h hrest
  refine ⟨token, ts, htokens, ?_, ?_⟩
  · rintro b rfl
    exact hbegins
  · rintro rfl
    exact hbegins

theorem exists_begins_padded {s : List Char} (h : IsValue v) (pad : Padded v s) (hrest : Ends rest) :
    ∃ token ts, tokens (s ++ rest) = token :: ts ∧ (∀ b, token ≠ .closing b) ∧ token ≠ .comma := by
  obtain ⟨rest', hpad, -, hends⟩ := pad.exists_tokens hrest
  obtain ⟨token, ts, htokens, hne⟩ := exists_begins_ne h hends
  exact ⟨token, ts, hpad.trans htokens, hne⟩

/-! ### Meeting a description -/

/-- Whether a reader takes just the values that are so described, each up to its end. -/
def Reader.Meets (r : Reader α) (IsWritten : List Char → α → Prop) : Prop :=
  ∀ (v rest : List Char) (x : α) (ts : List Token), IsValue v → Ends rest →
    (r.read (tokens (v ++ rest)) = .ok (x, ts) ↔ IsWritten v x ∧ ts = tokens rest)

variable {r : Reader α} {IsWritten : List Char → α → Prop}

/-- A reader of single tokens need only agree with the grammar about them. -/
theorem Reader.Meets.of_token {token : α → Token}
    (hread : ∀ {tokens x ts}, r.read tokens = .ok (x, ts) ↔ tokens = token x :: ts)
    (hbegins : ∀ {v rest x ts}, Begins v rest ts (token x) → IsWritten v x ∧ ts = tokens rest)
    (htokens : ∀ {v rest x}, IsWritten v x → Ends rest →
      tokens (v ++ rest) = token x :: tokens rest) : r.Meets IsWritten := by
  intro v rest x ts hv hrest
  rw [hread]
  constructor
  · exact fun h => hbegins (begins_of_tokens hv hrest h)
  · rintro ⟨hx, rfl⟩
    exact htokens hx hrest

theorem Reader.read_map_eq_ok_iff {f : α → β} {y : β} {tokens : List Token} :
    (r.map f).read tokens = .ok (y, ts) ↔ ∃ x, r.read tokens = .ok (x, ts) ∧ f x = y := by
  simp only [Reader.map]
  cases r.read tokens with
  | error problem => simp
  | ok pair =>
    obtain ⟨x, ts'⟩ := pair
    simp only [Except.ok.injEq, Prod.mk.injEq]
    constructor
    · rintro ⟨hy, hts⟩
      exact ⟨x, ⟨rfl, hts⟩, hy⟩
    · rintro ⟨x', ⟨rfl, hts⟩, hy⟩
      exact ⟨hy, hts⟩

theorem Reader.Meets.map (h : r.Meets IsWritten) (f : α → β) :
    (r.map f).Meets fun v y => ∃ x, IsWritten v x ∧ f x = y := by
  intro v rest y ts hv hrest
  rw [Reader.read_map_eq_ok_iff]
  constructor
  · rintro ⟨x, hx, hy⟩
    obtain ⟨hwritten, hts⟩ := (h v rest x ts hv hrest).1 hx
    exact ⟨⟨x, hwritten, hy⟩, hts⟩
  · rintro ⟨⟨x, hwritten, hy⟩, hts⟩
    exact ⟨x, (h v rest x ts hv hrest).2 ⟨hwritten, hts⟩, hy⟩

/-- A null is none, unless the reader takes it for something. -/
theorem Reader.Meets.optional (h : r.Meets IsWritten) (hnull : ∀ x, ¬ IsWritten "null".toList x) :
    r.optional.Meets (IsNullOr IsWritten) := by
  intro v rest y ts hv hrest
  by_cases hv' : v = "null".toList
  · subst hv'
    show readOptional r _ = _ ↔ _
    rw [tokens_null, readOptional, Except.ok.injEq, Prod.mk.injEq]
    cases y with
    | none => exact ⟨fun h => ⟨rfl, h.2.symm⟩, fun h => ⟨rfl, h.2.symm⟩⟩
    | some x =>
      constructor
      · rintro ⟨hx, -⟩
        cases hx
      · exact fun h => absurd h.1 (hnull x)
  · have hread : r.optional.read (tokens (v ++ rest)) = (r.map some).read (tokens (v ++ rest)) := by
      show readOptional r _ = _
      rw [readOptional]
      exact fun more heq => hv' (begins_of_tokens hv hrest heq).1
    rw [hread, h.map some v rest y ts hv hrest]
    cases y with
    | none =>
      constructor
      · rintro ⟨⟨_, -, hx⟩, -⟩
        cases hx
      · exact fun h => absurd h.1 hv'
    | some x => simp only [IsNullOr, Option.some.injEq, exists_eq_right]

/-! ### Sizes and truth values -/

theorem readSize_eq_ok_iff {n : UInt64} {tokens : List Token} :
    readSize tokens = .ok (n, ts) ↔ tokens = .number (.natural n) :: ts := by
  constructor
  · intro h
    unfold readSize at h
    split at h
    · cases h; rfl
    · cases h
    · cases h
  · rintro rfl
    rfl

theorem readFlag_eq_ok_iff {b : Bool} {tokens : List Token} :
    readFlag tokens = .ok (b, ts) ↔ tokens = .bool b :: ts := by
  constructor
  · intro h
    unfold readFlag at h
    split at h
    · cases h; rfl
    · cases h
  · rintro rfl
    rfl

theorem tokens_of_isSize {n : UInt64} (h : IsSize v n) (hrest : Ends rest) :
    tokens (v ++ rest) = .number (.natural n) :: tokens rest := by
  obtain ⟨token, htokens, -, hsize⟩ := tokens_number (.of_isWhole h.1) hrest
  rw [htokens, (hsize n).2 h]

theorem meets_size : Reader.size.Meets IsSize :=
  .of_token readSize_eq_ok_iff (fun h => h) tokens_of_isSize

theorem meets_flag :
    Reader.flag.Meets fun v b => v = (if b then "true" else "false").toList := by
  refine .of_token readFlag_eq_ok_iff (fun h => h) ?_
  rintro _ rest (_ | _) rfl -
  · exact tokens_false rest
  · exact tokens_true rest

/-! ### Choices -/

theorem colon_eq_ok_iff {tokens : List Token} : colon tokens = .ok ts ↔ tokens = .colon :: ts := by
  constructor
  · intro h
    unfold colon at h
    split at h
    · cases h; rfl
    · cases h
    · cases h
  · rintro rfl
    rfl

theorem close_eq_ok_iff {b : Bracket} {tokens : List Token} :
    close b tokens = .ok ts ↔ tokens = .closing b :: ts := by
  constructor
  · intro h
    unfold close at h
    split at h
    · split at h
      · next hb => cases h; rw [hb]
      · cases h
    · cases h
    · cases h
  · rintro rfl
    exact if_pos rfl

theorem readUnit_eq_ok_iff {tokens : List Token} :
    readUnit tokens = .ok ((), ts) ↔ tokens = .null :: ts := by
  constructor
  · intro h
    unfold readUnit at h
    split at h
    · cases h; rfl
    · cases h
  · rintro rfl
    rfl

theorem readKeyedNull_eq_ok_iff {tokens : List Token} :
    readKeyedNull tokens = .ok ((), ts) ↔
      tokens = .colon :: .null :: .closing .curly :: ts := by
  constructor
  · intro h
    unfold readKeyedNull at h
    split at h
    · cases h
    · next hcolon =>
      split at h
      · cases h
      · next hunit =>
        split at h
        · cases h
        · next hclose =>
          cases h
          rw [colon_eq_ok_iff.1 hcolon, readUnit_eq_ok_iff.1 hunit, close_eq_ok_iff.1 hclose]
  · rintro rfl
    rfl

section

variable {choices : Choices α} {word : α → String}

theorem readKeyedChoice_eq_ok_iff (hword : ∀ {s x}, choices.ofText? s = some x ↔ s = word x)
    {x : α} {tokens : List Token} :
    readKeyedChoice choices tokens = .ok (x, ts) ↔
      tokens = .text (word x) :: .colon :: .null :: .closing .curly :: ts := by
  constructor
  · intro h
    unfold readKeyedChoice at h
    split at h
    · next s more =>
      rw [Choices.pick] at h
      cases hs : choices.ofText? s with
      | none => simp [hs] at h
      | some choice =>
        cases hnull : readKeyedNull more with
        | error problem => simp [hs, hnull, Except.map] at h
        | ok pair =>
          simp only [hs, hnull, Except.map, Except.ok.injEq, Prod.mk.injEq] at h
          obtain ⟨rfl, rfl⟩ := h
          rw [hword.1 hs, readKeyedNull_eq_ok_iff.1 hnull]
    · cases h
  · rintro rfl
    rw [readKeyedChoice, Choices.pick, hword.2 rfl]
    rfl

theorem readChoice_eq_ok_iff (hword : ∀ {s x}, choices.ofText? s = some x ↔ s = word x)
    {x : α} {tokens : List Token} :
    readChoice choices tokens = .ok (x, ts) ↔ tokens = .text (word x) :: ts ∨
      tokens = .opening .curly :: .text (word x) :: .colon :: .null :: .closing .curly :: ts := by
  constructor
  · intro h
    unfold readChoice at h
    split at h
    · next s more =>
      rw [Choices.pick] at h
      cases hs : choices.ofText? s with
      | none => simp [hs, Except.map] at h
      | some choice =>
        simp only [hs, Except.map, Except.ok.injEq, Prod.mk.injEq] at h
        obtain ⟨rfl, rfl⟩ := h
        exact .inl (by rw [hword.1 hs])
    · exact .inr (by rw [(readKeyedChoice_eq_ok_iff hword).1 h])
    · cases h
  · rintro (rfl | rfl)
    · rw [readChoice, Choices.pick, hword.2 rfl]
      rfl
    · rw [readChoice, readKeyedChoice_eq_ok_iff hword]

theorem tokens_eq_null_iff (hv : IsValue v) (hrest : Ends rest) :
    tokens (v ++ rest) = .null :: ts ↔ v = "null".toList ∧ ts = tokens rest := by
  constructor
  · exact begins_of_tokens hv hrest
  · rintro ⟨rfl, rfl⟩
    exact tokens_null rest

theorem tokens_member_null_iff {m : Member} {s : List Char} {t : String} (h : IsMember m s)
    (hrest : Ends rest) :
    tokens (s ++ rest) = .text t :: .colon :: .null :: ts ↔
      m.HasKey t ∧ m.value = "null".toList ∧ ts = tokens rest := by
  obtain ⟨rest', hrest', hends, hvalue, ⟨k, hk, htokens⟩ | ⟨hnot, htokens⟩⟩ := tokens_member h hrest
  · rw [htokens, ← hrest', ← tokens_eq_null_iff hvalue hends]
    simp only [List.cons.injEq, Token.text.injEq, true_and]
    exact and_congr_left' ⟨fun ht => ht ▸ hk, fun ht => hasKey_unique hk ht⟩
  · rw [htokens]
    exact ⟨fun heq => (nomatch (List.cons.inj heq).1), fun hkey => absurd ⟨t, hkey.1⟩ hnot⟩

/-- The tokens of an object with one key and a null are those of no other object. -/
theorem tokens_keyedNull_iff {t : String} {members : List Member} (h : IsObject members v) :
    tokens (v ++ rest)
        = .opening .curly :: .text t :: .colon :: .null :: .closing .curly :: ts ↔
      (∃ m, members = [m] ∧ m.HasKey t ∧ m.value = "null".toList) ∧ ts = tokens rest := by
  obtain ⟨rfl, htokens⟩ | ⟨s, hmembers, htokens⟩ := tokens_object h rest
  · simp [htokens]
  rw [htokens, List.cons.injEq, eq_self, true_and]
  cases hmembers with
  | @last m _ member =>
    rw [tokens_member_null_iff member (.of_head '\x7d' (by simp) rest)]
    simp [and_assoc]
  | @more m s members t' member more =>
    rw [List.append_assoc, List.cons_append,
      tokens_member_null_iff member (.of_head ',' (by simp) _)]
    -- a comma is no closing bracket, and what follows it is another member
    have hmembers : members ≠ [] := by
      rintro rfl
      cases more
    simp [hmembers]

theorem meets_choice (hword : ∀ {s x}, choices.ofText? s = some x ↔ s = word x) :
    (Reader.choice choices).Meets fun v x => IsChoice (word x) v := by
  intro v rest x ts hv hrest
  show readChoice choices _ = _ ↔ _
  rw [readChoice_eq_ok_iff hword]
  constructor
  · rintro (htokens | htokens)
    · obtain ⟨⟨w, rfl, hw⟩, hts⟩ := begins_of_tokens hv hrest htokens
      exact ⟨.plain hw, hts⟩
    · obtain ⟨members, hobject⟩ := begins_of_tokens hv hrest htokens
      obtain ⟨⟨m, rfl, hkey, hnull⟩, hts⟩ := (tokens_keyedNull_iff hobject).1 htokens
      exact ⟨.keyed hobject hkey hnull, hts⟩
  · rintro ⟨(⟨spells⟩ | ⟨hobject, hkey, hnull⟩), rfl⟩
    · left
      rw [tokens_spelt spells, String.ofList_toList]
    · exact .inr ((tokens_keyedNull_iff hobject).2 ⟨⟨_, rfl, hkey, hnull⟩, rfl⟩)

end

end RecordRules.Document
