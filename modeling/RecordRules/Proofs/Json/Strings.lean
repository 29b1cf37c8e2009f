/-
Reading what stands between the quotes of a string.

A string is read up to its closing quote whether or not it spells a text. The text that is read is
the one that it spells, so a string spells one text at most.

* **`readText_of_spells`** — a string that spells a text is read as that text;
* **`Spells.unique`** — so it spells no other text, and a member has one key at most;
* **`readText_of_isQuoted`** — any other string is read too, and has none.
-/
import RecordRules.Json.Grammar

namespace RecordRules.Json

/-! ### One character at a time -/

theorem readText_quote (s : List Char) : readText ('"' :: s) = .closed (some []) s := by
  rw [readText]

theorem readText_plain {c : Char} (h : IsPlain c) (s : List Char) :
    readText (c :: s) = (readText s).push c := by
  obtain ⟨hquote, hslash, hcontrol⟩ := h
  rw [readText]
  · rw [if_neg (by omega)]
  all_goals simp_all

theorem readText_letter {e c : Char} (h : unescape? e = some c) (s : List Char) :
    readText ('\\' :: e :: s) = (readText s).push c := by
  have hu : e ≠ 'u' := by rintro rfl; cases h
  rw [readText]
  · rw [h]
  all_goals simp_all

/-- A code that is no surrogate. -/
theorem readText_code {a b c d : Char} {n : Nat} (hex : hex4? a b c d = some n)
    (hhigh : isHighSurrogate n = false) (hlow : isLowSurrogate n = false) (s : List Char) :
    readText ('\\' :: 'u' :: a :: b :: c :: d :: s) = (readText s).push (Char.ofNat n) := by
  rw [readText]
  simp [hex, hhigh, hlow]

theorem readText_low {a b c d : Char} {n : Nat} (hex : hex4? a b c d = some n)
    (hlow : isLowSurrogate n = true) (s : List Char) :
    readText ('\\' :: 'u' :: a :: b :: c :: d :: s) = (readText s).unpaired .malformed := by
  rw [readText]
  simp [hex, hlow]

/-- No code is a surrogate of both sorts. -/
theorem isLowSurrogate_of_isHighSurrogate {n : Nat} (h : isHighSurrogate n = true) :
    isLowSurrogate n = false := by
  simp only [isHighSurrogate, isLowSurrogate, Bool.and_eq_true, Bool.and_eq_false_iff,
    decide_eq_true_eq, decide_eq_false_iff_not] at h ⊢
  omega

theorem readText_high {a b c d : Char} {n : Nat} (hex : hex4? a b c d = some n)
    (hhigh : isHighSurrogate n = true) (s : List Char) :
    readText ('\\' :: 'u' :: a :: b :: c :: d :: s)
      = match lowSurrogate s with
        | .ok (low, rest) => (readText rest).push (ofSurrogates n low)
        | .error fault => (readText s).unpaired fault := by
  rw [readText]
  simp only [hex, hhigh, isLowSurrogate_of_isHighSurrogate hhigh, Bool.false_eq_true, if_false,
    if_true]
  split <;> simp_all

/-- A low surrogate is a code after `\u`. -/
theorem lowSurrogate_eq_ok_iff {s rest : List Char} {low : Nat} :
    lowSurrogate s = .ok (low, rest) ↔
      ∃ a b c d, s = '\\' :: 'u' :: a :: b :: c :: d :: rest ∧ hex4? a b c d = some low ∧
        isLowSurrogate low = true := by
  constructor
  · intro h
    unfold lowSurrogate at h
    split at h
    · cases h
    · cases h
    · next a b c d more =>
      split at h
      · next low' hex =>
        split at h
        · next hlow => cases h; exact ⟨a, b, c, d, rfl, hex, hlow⟩
        · cases h
      · cases h
    · cases h
    · cases h
  · rintro ⟨a, b, c, d, rfl, hex, hlow⟩
    simp [lowSurrogate, hex, hlow]

/-! ### Whole strings -/

/-- A string that spells a text is read as that text, up to its closing quote. -/
theorem readText_of_spells {t w : List Char} (h : Spells t w) (rest : List Char) :
    readText (w ++ '"' :: rest) = .closed (some t) rest := by
  induction h with
  | nil => exact readText_quote rest
  | plain isPlain _ ih => rw [List.cons_append, readText_plain isPlain, ih]; rfl
  | letter escape _ ih =>
    rw [List.cons_append, List.cons_append, readText_letter escape, ih]; rfl
  | code hex not_high not_low _ ih =>
    simp only [List.cons_append]
    rw [readText_code hex not_high not_low, ih]; rfl
  | pair hex isHigh hex' isLow _ ih =>
    simp only [List.cons_append]
    rw [readText_high hex isHigh, lowSurrogate_eq_ok_iff.2 ⟨_, _, _, _, rfl, hex', isLow⟩]
    show (readText _).push _ = _
    rw [ih]; rfl

theorem Spells.isQuoted {t w : List Char} (h : Spells t w) : IsQuoted w := by
  induction h with
  | nil => exact .nil
  | plain isPlain _ ih => exact .plain isPlain ih
  | letter escape _ ih => exact .letter escape ih
  | code hex _ _ _ ih => exact .code hex ih
  | pair hex _ hex' _ _ ih => exact .code hex (.code hex' ih)

/-- A string spells at most one text. -/
theorem Spells.unique {t t' w : List Char} (h : Spells t w) (h' : Spells t' w) : t = t' := by
  have hread := (readText_of_spells h []).symm.trans (readText_of_spells h' [])
  rw [TextReading.closed.injEq, Option.some.injEq] at hread
  exact hread.1

/-- A member has at most one key. -/
theorem hasKey_unique {m : Member} {key key' : String} (h : m.HasKey key) (h' : m.HasKey key') :
    key = key' :=
  String.toList_injective (h.unique h')

theorem not_hasKey {m : Member} {key key' : String} (h : m.HasKey key) (hne : key ≠ key') :
    ¬ m.HasKey key' := fun h' => hne (hasKey_unique h h')

/-- A low surrogate in a string does not reach beyond the string. -/
theorem isQuoted_of_lowSurrogate {w rest more : List Char} {low : Nat} (h : IsQuoted w)
    (hlow : lowSurrogate (w ++ '"' :: rest) = .ok (low, more)) :
    ∃ a b c d w', w = '\\' :: 'u' :: a :: b :: c :: d :: w' ∧ more = w' ++ '"' :: rest ∧
      hex4? a b c d = some low ∧ isLowSurrogate low = true ∧ IsQuoted w' := by
  obtain ⟨a, b, c, d, hw, hex, hisLow⟩ := lowSurrogate_eq_ok_iff.1 hlow
  cases h with
  | nil => simp at hw
  | plain isPlain _ => exact absurd (List.cons.inj hw).1 isPlain.2.1
  | letter escape _ =>
    simp only [List.cons_append, List.cons.injEq] at hw
    rw [hw.2.1] at escape
    cases escape
  | code hex' isQuoted =>
    simp only [List.cons_append, List.cons.injEq, true_and] at hw
    obtain ⟨rfl, rfl, rfl, rfl, rfl⟩ := hw
    exact ⟨_, _, _, _, _, rfl, rfl, hex, hisLow, isQuoted⟩

/-- A string that spells no text is read up to its closing quote all the same. -/
theorem readText_of_isQuoted {w : List Char} (h : IsQuoted w) (rest : List Char) :
    (∃ t, Spells t w) ∨ readText (w ++ '"' :: rest) = .closed none rest := by
  -- by length, since a pair of surrogates is two codes and one character
  induction hlen : w.length using Nat.strongRecOn generalizing w with
  | ind len ih =>
    subst hlen
    cases h with
    | nil => exact .inl ⟨[], .nil⟩
    | @plain c w isPlain more =>
      rcases ih _ (by simp only [List.length_cons]; omega) more rfl with ⟨t, ht⟩ | hread
      · exact .inl ⟨c :: t, .plain isPlain ht⟩
      · refine .inr ?_
        rw [List.cons_append, readText_plain isPlain, hread]; rfl
    | @letter e c w escape more =>
      rcases ih _ (by simp only [List.length_cons]; omega) more rfl with ⟨t, ht⟩ | hread
      · exact .inl ⟨c :: t, .letter escape ht⟩
      · refine .inr ?_
        rw [List.cons_append, List.cons_append, readText_letter escape, hread]; rfl
    | @code a b c d n w hex more =>
      have hmore := ih _ (by simp only [List.length_cons]; omega) more rfl
      obtain ⟨o, hclosed⟩ : ∃ o, readText (w ++ '"' :: rest) = .closed o rest := by
        rcases hmore with ⟨t, ht⟩ | hread
        · exact ⟨some t, readText_of_spells ht rest⟩
        · exact ⟨none, hread⟩
      simp only [List.cons_append]
      by_cases hlow : isLowSurrogate n = true
      · refine .inr ?_
        rw [readText_low hex hlow, hclosed]; rfl
      rw [Bool.not_eq_true] at hlow
      by_cases hhigh : isHighSurrogate n = true
      · rw [readText_high hex hhigh]
        cases hpair : lowSurrogate (w ++ '"' :: rest) with
        | error fault =>
          refine .inr ?_
          show (readText _).unpaired fault = _
          rw [hclosed]; rfl
        | ok pair =>
          obtain ⟨e, f, g, h, w', rfl, heq, hex', isLow, more'⟩ :=
            isQuoted_of_lowSurrogate more hpair
          show _ ∨ (readText pair.2).push _ = _
          rw [heq]
          rcases ih _ (by simp only [List.length_cons]; omega) more' rfl with ⟨t, ht⟩ | hread
          · exact .inl ⟨_, .pair hex hhigh hex' isLow ht⟩
          · rw [hread]; exact .inr rfl
      · rw [Bool.not_eq_true] at hhigh
        rw [readText_code hex hhigh hlow]
        rcases hmore with ⟨t, ht⟩ | hread
        · exact .inl ⟨_, .code hex hhigh hlow ht⟩
        · rw [hread]; exact .inr rfl

end RecordRules.Json
