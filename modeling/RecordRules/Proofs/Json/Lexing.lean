/-
The tokens of what the grammar writes.

A piece of a document has the same tokens whatever comes after it, and the text after it has its
own. Only a number must not go on there.

* **`NumberText.scan_of_isNumber`** — a number is read up to its end, part by part;
* **`tokens_quoted`**, **`tokens_number`** — a string is one token and so is a number, and the token
  tells its text or whether it is a size;
* **`Padded.exists_tokens`** — blanks around a piece change nothing;
* **`tokens_list`**, **`tokens_object`**, **`tokens_member`** — a bracket is one token, and a member
  begins with the tokens of its key and of a colon.
-/
import RecordRules.Proofs.Json.Strings

namespace RecordRules.Json

/-! ### Numbers -/

/-- No number goes on into the text. -/
def Ends (rest : List Char) : Prop := ∀ c ∈ rest.head?, c.isDigit = false ∧ c ∉ ['.', 'e', 'E']

/-- A run of digits does not begin with anything else. -/
theorem IsDigits.append_ne {ds rest more : List Char} {c : Char} (h : IsDigits ds)
    (hc : c.isDigit = false) : ds ++ rest ≠ c :: more := by
  obtain ⟨d, ds, rfl⟩ := List.exists_cons_of_ne_nil h.1
  intro heq
  have hd := h.2 d (by simp)
  rw [(List.cons.inj heq).1, hc] at hd
  cases hd

namespace NumberText

variable {ds s rest : List Char}

/-- A run of digits is read up to what is no digit. -/
theorem digits_append (h : IsDigits ds) (hrest : ∀ c ∈ rest.head?, c.isDigit = false) :
    digits (ds ++ rest) = .ok (ds, rest) := by
  have hspan : rest.takeWhile Char.isDigit = [] ∧ rest.dropWhile Char.isDigit = rest := by
    cases rest with
    | nil => exact ⟨rfl, rfl⟩
    | cons c rest => simp [hrest c rfl]
  rw [digits, List.takeWhile_append_of_pos h.2, List.dropWhile_append_of_pos h.2, hspan.1, hspan.2,
    List.append_nil, if_neg h.1]

theorem wholeDigits_append (h : IsWhole ds) (hrest : ∀ c ∈ rest.head?, c.isDigit = false) :
    wholeDigits (ds ++ rest) = .ok (ds, rest) := by
  rw [wholeDigits, digits_append h.1 hrest]
  split
  · next heq =>
    -- a zero in front of more digits is no whole number
    cases heq
    cases h.2 rfl
  · rfl

/-- A text that begins with a fraction or an exponent, or ends a number, begins with no digit. -/
theorem head_fraction_append (h : IsFraction s) (hrest : ∀ c ∈ rest.head?, c.isDigit = false) :
    ∀ c ∈ (s ++ rest).head?, c.isDigit = false := by
  cases h with
  | none => exact hrest
  | some _ => simp

theorem head_exponent_append (h : IsExponent s) (hrest : Ends rest) :
    ∀ c ∈ (s ++ rest).head?, c.isDigit = false ∧ c ≠ '.' := by
  cases h with
  | none => exact fun c hc => by simpa using ⟨(hrest c hc).1, fun h => (hrest c hc).2 (by simp [h])⟩
  | some letter _ _ => rcases letter with rfl | rfl <;> simp

/-- The digits of a fraction. -/
theorem fractionDigits_append (h : IsFraction s)
    (hrest : ∀ c ∈ rest.head?, c.isDigit = false ∧ c ≠ '.') :
    ∃ ds, fractionDigits (s ++ rest) = .ok (ds, rest) ∧ (ds = none ↔ s = []) := by
  cases h with
  | none =>
    refine ⟨none, ?_, by simp⟩
    rw [List.nil_append, fractionDigits]
    rintro more rfl
    exact (hrest '.' rfl).2 rfl
  | @some ds digits =>
    refine ⟨some ds, ?_, by simp⟩
    rw [List.cons_append, fractionDigits, digits_append digits fun c hc => (hrest c hc).1]
    rfl

/-- An exponent is read, with any sign, up to its end. -/
theorem exponentDigits_append (h : IsExponent s) (hrest : Ends rest) :
    ∃ e, exponentDigits (s ++ rest) = .ok (e, rest) ∧ (e = none ↔ s = []) := by
  have hdigit : ∀ c ∈ rest.head?, c.isDigit = false := fun c hc => (hrest c hc).1
  cases h with
  | none =>
    refine ⟨none, ?_, by simp⟩
    rw [List.nil_append, exponentDigits]
    · rintro more rfl
      exact (hrest 'e' rfl).2 (by simp)
    · rintro more rfl
      exact (hrest 'E' rfl).2 (by simp)
  | @some e sign ds letter sign_mem digits =>
    have hsigned : ∃ e, signedDigits (sign ++ ds ++ rest) = .ok (e, rest) := by
      obtain rfl | rfl | rfl : sign = [] ∨ sign = ['+'] ∨ sign = ['-'] := by simpa using sign_mem
      · refine ⟨(false, ds), ?_⟩
        rw [List.nil_append, signedDigits, digits_append digits hdigit]
        · rfl
        all_goals exact fun more => digits.append_ne (by decide)
      · exact ⟨(false, ds), by simp [signedDigits, digits_append digits hdigit, Except.map]⟩
      · exact ⟨(true, ds), by simp [signedDigits, digits_append digits hdigit, Except.map]⟩
    obtain ⟨e', he'⟩ := hsigned
    refine ⟨some e', ?_, by simp⟩
    rcases letter with rfl | rfl
    all_goals
      simp only [List.cons_append, exponentDigits, he']
      rfl

/-- A whole number has no sign, no fraction and no exponent. -/
theorem isWhole_append_iff {sign whole fraction exponent : List Char}
    (sign_mem : sign ∈ [[], ['-']]) (isWhole : IsWhole whole) (isFraction : IsFraction fraction)
    (isExponent : IsExponent exponent) :
    IsWhole (sign ++ whole ++ fraction ++ exponent) ↔ sign = [] ∧ fraction = [] ∧ exponent = [] := by
  constructor
  · rintro ⟨⟨-, hdigit⟩, -⟩
    refine ⟨?_, ?_, ?_⟩
    · obtain rfl | rfl : sign = [] ∨ sign = ['-'] := by simpa using sign_mem
      · rfl
      · cases hdigit '-' (by simp)
    · cases isFraction with
      | none => rfl
      | some _ => cases hdigit '.' (by simp)
    · cases isExponent with
      | none => rfl
      | some letter _ _ =>
        rcases letter with rfl | rfl
        · cases hdigit 'e' (by simp)
        · cases hdigit 'E' (by simp)
  · rintro ⟨rfl, rfl, rfl⟩
    simpa using isWhole

/-- A number is read up to its end. It has neither sign nor fraction nor exponent if it is whole. -/
theorem scan_of_isNumber (h : IsNumber s) (hrest : Ends rest) :
    ∃ t, scan (s ++ rest) = .ok (t, rest) ∧
      (IsWhole s ↔ t.negative = false ∧ t.fraction = none ∧ t.exponent = none) ∧
      (IsWhole s → t.whole = s) := by
  cases h with
  | @mk sign whole fraction exponent sign_mem isWhole isFraction isExponent =>
    obtain ⟨e, hexponent, he⟩ := exponentDigits_append isExponent hrest
    obtain ⟨f, hfraction, hf⟩ :=
      fractionDigits_append isFraction (head_exponent_append isExponent hrest)
    have hwhole := wholeDigits_append isWhole (head_fraction_append isFraction
      fun c hc => (head_exponent_append isExponent hrest c hc).1)
    have hscan : ∀ negative, scanUnsigned negative (whole ++ (fraction ++ (exponent ++ rest)))
        = .ok (⟨negative, whole, f, e⟩, rest) := by
      intro negative
      simp only [scanUnsigned, hwhole, hfraction, hexponent, bind, Except.bind, pure, Except.pure]
    have hiff := isWhole_append_iff sign_mem isWhole isFraction isExponent
    refine ⟨⟨sign = ['-'], whole, f, e⟩, ?_, ?_, ?_⟩
    · obtain rfl | rfl : sign = [] ∨ sign = ['-'] := by simpa using sign_mem
      · simp only [List.nil_append, List.append_assoc]
        rw [scan, hscan]
        · rfl
        · exact fun more => isWhole.1.append_ne (by decide)
      · simp only [List.append_assoc, List.cons_append, List.nil_append]
        exact hscan true
    · rw [hiff, hf, he]
      obtain rfl | rfl : sign = [] ∨ sign = ['-'] := by simpa using sign_mem
      · simp
      · simp
    · intro hs
      obtain ⟨rfl, rfl, rfl⟩ := hiff.1 hs
      simp

/-- The numbers whose value is a natural one. -/
theorem value?_eq_natural_iff {t : NumberText} {n : UInt64} :
    t.value? = some (.natural n) ↔
      (t.negative = false ∧ t.fraction = none ∧ t.exponent = none) ∧
        Decimal.value t.whole = n.toNat := by
  have hreal : ∀ x : Option Float, x.map Numeral.real ≠ some (.natural n) := by simp
  obtain ⟨negative, whole, fraction, exponent⟩ := t
  rw [value?, Option.or_eq_some_iff]
  simp only [hreal, and_false, or_false]
  unfold integer?
  split
  · next hfraction hexponent =>
    obtain rfl : fraction = none := hfraction
    obtain rfl : exponent = none := hexponent
    cases negative with
    | true => simp
    | false =>
      have hlt : n.toNat < UInt64.size := n.toNat_lt
      simp only [Bool.false_eq_true, if_false, and_self, true_and]
      split
      · next hsize =>
        rw [Option.some.injEq, Numeral.natural.injEq]
        constructor
        · rintro rfl; exact (UInt64.toNat_ofNat_of_lt' hsize).symm
        · intro h; rw [h, UInt64.ofNat_toNat]
      · next hsize =>
        refine ⟨nofun, ?_⟩
        intro h
        omega
  · next hneither =>
    refine ⟨nofun, ?_⟩
    rintro ⟨⟨-, hfraction, hexponent⟩, -⟩
    exact (hneither hfraction hexponent).elim

end NumberText

/-! ### Strings and numbers as tokens -/

/-- A number begins with a minus sign or a digit. -/
theorem IsNumber.exists_cons {v : List Char} (h : IsNumber v) :
    ∃ c s, v = c :: s ∧ (c = '-' ∨ c.isDigit = true) := by
  cases h with
  | @mk sign whole fraction exponent sign_mem isWhole _ _ =>
    obtain rfl | rfl : sign = [] ∨ sign = ['-'] := by simpa using sign_mem
    · obtain ⟨d, ds, rfl⟩ := List.exists_cons_of_ne_nil isWhole.1.1
      exact ⟨d, _, rfl, .inr (isWhole.1.2 d (by simp))⟩
    · exact ⟨'-', _, rfl, .inl rfl⟩

/-- A whole number is a number. -/
theorem IsNumber.of_isWhole {v : List Char} (h : IsWhole v) : IsNumber v := by
  have hnumber : IsNumber ([] ++ v ++ [] ++ []) := .mk (by simp) h .none .none
  rwa [List.nil_append, List.append_nil, List.append_nil] at hnumber

theorem tokens_eq_numberToken {c : Char} (hc : c = '-' ∨ c.isDigit = true) (s : List Char) :
    tokens (c :: s) = (numberToken (c :: s)).1 :: tokens (numberToken (c :: s)).2 := by
  have hne : ∀ d : Char, d ≠ '-' → d.isDigit = false → c ≠ d := by
    rintro d hd hdigit rfl
    simp [hd, hdigit] at hc
  have hspace : isSpace c = false := by
    simp [isSpace, hne ' ' (by decide) (by decide), hne '\t' (by decide) (by decide),
      hne '\n' (by decide) (by decide), hne '\r' (by decide) (by decide)]
  have htoken : token c s = numberToken (c :: s) := by
    rw [token]
    · rw [if_pos hc]
    all_goals exact hne _ (by decide) (by decide)
  rw [tokens_cons hspace, htoken]

/-- A number is one token. It is that of a size if the number is one. -/
theorem tokens_number {v rest : List Char} (h : IsNumber v) (hrest : Ends rest) :
    ∃ token, tokens (v ++ rest) = token :: tokens rest ∧
      (token = .unfit false ∨ ∃ n, token = .number n) ∧
      ∀ n, token = .number (.natural n) ↔ IsSize v n := by
  obtain ⟨t, hscan, hwhole, hvalue⟩ := NumberText.scan_of_isNumber h hrest
  have htokens : tokens (v ++ rest)
      = (numberToken (v ++ rest)).1 :: tokens (numberToken (v ++ rest)).2 := by
    obtain ⟨c, v', rfl, hc⟩ := h.exists_cons
    exact tokens_eq_numberToken hc _
  have hsize : ∀ n, t.value? = some (.natural n) ↔ IsSize v n := by
    intro n
    rw [NumberText.value?_eq_natural_iff, ← hwhole, IsSize]
    exact and_congr_right fun h => by rw [hvalue h]
  rw [htokens, numberToken, hscan]
  cases hvalue? : t.value? with
  | none =>
    refine ⟨.unfit false, by simp only [hvalue?], .inl rfl, ?_⟩
    intro n
    rw [← hsize, hvalue?]
    exact ⟨nofun, nofun⟩
  | some m =>
    refine ⟨.number m, by simp only [hvalue?], .inr ⟨m, rfl⟩, ?_⟩
    intro n
    rw [← hsize, hvalue?, Token.number.injEq, Option.some.injEq]

/-- A string is one token: that of its text, if it spells one. -/
theorem tokens_quoted {w : List Char} (h : IsQuoted w) (rest : List Char) :
    (∃ t, Spells t w ∧ tokens (quoted w ++ rest) = .text (String.ofList t) :: tokens rest) ∨
      (¬ ∃ t, Spells t w) ∧ tokens (quoted w ++ rest) = .unfit true :: tokens rest := by
  have htokens : tokens (quoted w ++ rest)
      = (textToken (w ++ '"' :: rest)).1 :: tokens (textToken (w ++ '"' :: rest)).2 := by
    simp only [quoted, List.cons_append, List.append_assoc, List.nil_append]
    exact tokens_cons (by decide) _
  rw [htokens, textToken]
  by_cases hspells : ∃ t, Spells t w
  · obtain ⟨t, ht⟩ := hspells
    refine .inl ⟨t, ht, ?_⟩
    rw [readText_of_spells ht]
  · refine .inr ⟨hspells, ?_⟩
    rw [(readText_of_isQuoted h rest).resolve_left hspells]

theorem tokens_spelt {t w : List Char} (h : Spells t w) (rest : List Char) :
    tokens (quoted w ++ rest) = .text (String.ofList t) :: tokens rest := by
  obtain ⟨t', ht', htokens⟩ | ⟨hnot, -⟩ := tokens_quoted h.isQuoted rest
  · rw [htokens, ht'.unique h]
  · exact absurd ⟨t, h⟩ hnot

/-! ### Punctuation and words -/

@[simp] theorem tokens_opening_square (rest : List Char) :
    tokens ('[' :: rest) = .opening .square :: tokens rest := tokens_cons (by decide) rest

@[simp] theorem tokens_closing_square (rest : List Char) :
    tokens (']' :: rest) = .closing .square :: tokens rest := tokens_cons (by decide) rest

@[simp] theorem tokens_opening_curly (rest : List Char) :
    tokens ('\x7b' :: rest) = .opening .curly :: tokens rest := tokens_cons (by decide) rest

@[simp] theorem tokens_closing_curly (rest : List Char) :
    tokens ('\x7d' :: rest) = .closing .curly :: tokens rest := tokens_cons (by decide) rest

@[simp] theorem tokens_comma (rest : List Char) :
    tokens (',' :: rest) = .comma :: tokens rest := tokens_cons (by decide) rest

@[simp] theorem tokens_colon (rest : List Char) :
    tokens (':' :: rest) = .colon :: tokens rest := tokens_cons (by decide) rest

/-- Punctuation ends a number. -/
theorem Ends.of_head (c : Char) (h : c ∈ [':', ',', ']', '\x7d']) (rest : List Char) :
    Ends (c :: rest) := by
  intro d hd
  obtain rfl : c = d := by simpa using hd
  obtain rfl | rfl | rfl | rfl : c = ':' ∨ c = ',' ∨ c = ']' ∨ c = '\x7d' := by simpa using h
  all_goals decide

theorem tokens_null (rest : List Char) : tokens ("null".toList ++ rest) = .null :: tokens rest :=
  tokens_cons (by decide) ("ull".toList ++ rest)

theorem tokens_true (rest : List Char) :
    tokens ("true".toList ++ rest) = .bool true :: tokens rest :=
  tokens_cons (by decide) ("rue".toList ++ rest)

theorem tokens_false (rest : List Char) :
    tokens ("false".toList ++ rest) = .bool false :: tokens rest :=
  tokens_cons (by decide) ("alse".toList ++ rest)

/-! ### Blanks -/

theorem tokens_blanks {s : List Char} (h : IsBlanks s) (rest : List Char) :
    tokens (s ++ rest) = tokens rest := by
  induction s with
  | nil => rfl
  | cons c s ih =>
    rw [List.cons_append, tokens_blank (h c (by simp)), ih fun d hd => h d (by simp [hd])]

/-- A blank ends a number. -/
theorem Ends.of_blanks {s rest : List Char} (h : IsBlanks s) (hrest : Ends rest) :
    Ends (s ++ rest) := by
  cases s with
  | nil => exact hrest
  | cons c s =>
    have hc : c = ' ' ∨ c = '\t' ∨ c = '\n' ∨ c = '\r' := by
      simpa [isSpace, or_assoc] using h c (by simp)
    intro d hd
    obtain rfl : c = d := by simpa using hd
    rcases hc with rfl | rfl | rfl | rfl <;> decide

/-- Blanks around a piece of a document change nothing. -/
theorem Padded.exists_tokens {v s rest : List Char} (h : Padded v s) (hrest : Ends rest) :
    ∃ rest', tokens (s ++ rest) = tokens (v ++ rest') ∧ tokens rest' = tokens rest ∧
      Ends rest' := by
  obtain ⟨before, after, hbefore, hafter, rfl⟩ := h
  refine ⟨after ++ rest, ?_, tokens_blanks hafter rest, .of_blanks hafter hrest⟩
  rw [List.append_assoc, List.append_assoc, tokens_blanks hbefore]

/-! ### Lists and objects -/

theorem tokens_list {values : List (List Char)} {v : List Char} (h : IsList values v)
    (rest : List Char) :
    (values = [] ∧ tokens (v ++ rest) = .opening .square :: .closing .square :: tokens rest) ∨
      ∃ s, IsItems values s ∧ tokens (v ++ rest) = .opening .square :: tokens (s ++ ']' :: rest) := by
  cases h with
  | empty h => exact .inl ⟨rfl, by simp [tokens_blanks h]⟩
  | @items _ s h => exact .inr ⟨s, h, by simp⟩

theorem tokens_object {members : List Member} {v : List Char} (h : IsObject members v)
    (rest : List Char) :
    (members = [] ∧ tokens (v ++ rest) = .opening .curly :: .closing .curly :: tokens rest) ∨
      ∃ s, IsMembers members s ∧
        tokens (v ++ rest) = .opening .curly :: tokens (s ++ '\x7d' :: rest) := by
  cases h with
  | empty h => exact .inl ⟨rfl, by simp [tokens_blanks h]⟩
  | @members _ s h => exact .inr ⟨s, h, by simp⟩

/-- A key is one token, and so is the colon behind it. -/
theorem tokens_keyed {w v s t rest : List Char} (key : IsQuoted w) (padKey : Padded (quoted w) s)
    (padValue : Padded v t) (hrest : Ends rest) :
    ∃ rest', tokens rest' = tokens rest ∧ Ends rest' ∧
      ((∃ k, Spells k w ∧ tokens (s ++ ':' :: t ++ rest)
          = .text (String.ofList k) :: .colon :: tokens (v ++ rest')) ∨
        (¬ ∃ k, Spells k w) ∧ tokens (s ++ ':' :: t ++ rest)
          = .unfit true :: .colon :: tokens (v ++ rest')) := by
  obtain ⟨colon, hkey, hcolon, -⟩ := padKey.exists_tokens (.of_head ':' (by simp) (t ++ rest))
  obtain ⟨rest', hvalue, hrest', hends⟩ := padValue.exists_tokens hrest
  rw [tokens_colon, hvalue] at hcolon
  refine ⟨rest', hrest', hends, ?_⟩
  rw [List.append_assoc, List.cons_append, hkey, ← hcolon]
  exact tokens_quoted key colon

/-- A member begins with its key, if that is a text. -/
theorem tokens_member {m : Member} {s rest : List Char} (h : IsMember m s) (hrest : Ends rest) :
    ∃ rest', tokens rest' = tokens rest ∧ Ends rest' ∧ IsValue m.value ∧
      ((∃ k, m.HasKey k ∧ tokens (s ++ rest) = .text k :: .colon :: tokens (m.value ++ rest')) ∨
        ¬ m.HasText ∧ tokens (s ++ rest) = .unfit true :: .colon :: tokens (m.value ++ rest')) := by
  obtain ⟨key, value, padKey, padValue⟩ := h
  obtain ⟨rest', hrest', hends, htokens⟩ := tokens_keyed key padKey padValue hrest
  refine ⟨rest', hrest', hends, value, ?_⟩
  obtain ⟨k, hk, hkey⟩ | ⟨hnot, hkey⟩ := htokens
  · exact .inl ⟨String.ofList k, by rwa [Member.HasKey, String.toList_ofList], hkey⟩
  · exact .inr ⟨fun ⟨k, hk⟩ => hnot ⟨k.toList, hk⟩, hkey⟩

end RecordRules.Json
