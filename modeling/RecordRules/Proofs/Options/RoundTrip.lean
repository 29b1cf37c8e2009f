/-
Reading an option list inverts writing one.

A pair is written with an equals sign between key and value, and written pairs are joined by commas.
Blank parts may stand anywhere between them. What is read can be written again, and only a part
without an equals sign, of which the first one counts, keeps a list from being read.

* **`parts_intercalate`** — the parts of joined texts are those that are not blank, trimmed;
* **`pair?_writePair`**, **`WellFormed.of_pair?`** — one written pair, and what one part gives;
* **`pairs_intercalate`** — written pairs are read back, whatever blank parts stand between them;
* **`pairs_inverts_writing`** — so lists of well-formed pairs are read, and no others, and what
  cannot be read is told by its first bad part.
-/
import RecordRules.Options

namespace RecordRules.Options

open Text

/-- Pairs that can be written: key and value are trimmed and have no comma, and the key has no
equals sign. Both may be empty, and the value may have equals signs. -/
structure WellFormed (pair : Pair) : Prop where
  trim_key : trim pair.1 = pair.1
  trim_value : trim pair.2 = pair.2
  comma_not_mem_key : ',' ∉ pair.1
  comma_not_mem_value : ',' ∉ pair.2
  equals_not_mem_key : '=' ∉ pair.1

/-- A part that spoils its list: trimmed, it is not empty and has no equals sign. -/
def Spoils (part : List Char) : Prop := trim part ≠ [] ∧ '=' ∉ trim part

instance (part : List Char) : Decidable (Spoils part) :=
  inferInstanceAs (Decidable (_ ∧ _))

variable {s : List Char} {pair : Pair} {ps : List Pair}

/-! ### One pair -/

theorem trim_writePair_ne_nil (pair : Pair) : trim (writePair pair) ≠ [] := by
  have hequals : '=' ∈ trim (writePair pair) :=
    (mem_trimEnds_iff (p := isBlank) (by decide)).2 (by simp [writePair])
  exact List.ne_nil_of_mem hequals

theorem WellFormed.comma_not_mem (h : WellFormed pair) : ',' ∉ writePair pair := by
  simp [writePair, h.comma_not_mem_key, h.comma_not_mem_value]

theorem pair?_writePair (h : WellFormed pair) : pair? (writePair pair) = some pair := by
  rw [pair?, writePair, cut_append_cons h.equals_not_mem_key]
  show some (trim pair.1, trim pair.2) = some pair
  rw [h.trim_key, h.trim_value]

/-- A part without commas gives a pair that can be written. -/
theorem WellFormed.of_pair? {part : List Char} (hcomma : ',' ∉ part) (h : pair? part = some pair) :
    WellFormed pair := by
  obtain ⟨⟨key, value⟩, hcut, rfl⟩ := Option.map_eq_some_iff.1 h
  obtain ⟨hequals, rfl⟩ := cut_eq_some_iff.1 hcut
  constructor
  · exact trimEnds_trimEnds key
  · exact trimEnds_trimEnds value
  · exact fun hmem => hcomma (by simp [mem_of_mem_trimEnds hmem])
  · exact fun hmem => hcomma (by simp [mem_of_mem_trimEnds hmem])
  · exact fun hmem => hequals (mem_of_mem_trimEnds hmem)

/-! ### Lists of pairs -/

/-- The parts of joined texts are those that are not blank, trimmed. -/
theorem parts_intercalate {texts : List (List Char)} (h : ∀ text ∈ texts, ',' ∉ text) :
    parts ([','].intercalate texts) = (texts.filter (trim · ≠ [])).map trim := by
  by_cases hne : texts = []
  · -- nothing joined is one blank piece
    subst hne
    rfl
  · rw [parts, pieces_intercalate hne h, List.filter_map]
    rfl

/-- Written pairs are read back, with blank texts between them as without. -/
theorem pairs_intercalate {texts : List (List Char)} (h : ∀ pair ∈ ps, WellFormed pair)
    (htexts : texts.filter (trim · ≠ []) = ps.map writePair) :
    pairs ([','].intercalate texts) = .ok ps := by
  have hcomma : ∀ text ∈ texts, ',' ∉ text := by
    intro text htext hmem
    have hne : trim text ≠ [] :=
      List.ne_nil_of_mem ((mem_trimEnds_iff (p := isBlank) (by decide)).2 hmem)
    have hwritten : text ∈ ps.map writePair :=
      htexts ▸ List.mem_filter.2 ⟨htext, by simpa using hne⟩
    obtain ⟨pair, hpair, rfl⟩ := List.mem_map.1 hwritten
    exact (h pair hpair).comma_not_mem hmem
  rw [pairs_eq_ok_iff, parts_intercalate hcomma, htexts, List.map_map, List.map_map]
  refine List.map_congr_left ?_
  intro pair hpair
  exact (pair?_trim _).trans (pair?_writePair (h pair hpair))

theorem wellFormed_of_mem_pairs (h : pairs s = .ok ps) : ∀ pair ∈ ps, WellFormed pair := by
  intro pair hpair
  have hmem : some pair ∈ (parts s).map pair? :=
    pairs_eq_ok_iff.1 h ▸ List.mem_map_of_mem hpair
  obtain ⟨part, hpart, hread⟩ := List.mem_map.1 hmem
  obtain ⟨piece, hpiece, rfl⟩ := List.mem_map.1 (List.mem_filter.1 hpart).1
  refine .of_pair? ?_ hread
  exact fun hcomma => not_mem_of_mem_pieces hpiece (mem_of_mem_trimEnds hcomma)

theorem exists_pairs_eq_ok_iff : (∃ s, pairs s = .ok ps) ↔ ∀ pair ∈ ps, WellFormed pair := by
  constructor
  · rintro ⟨s, h⟩
    exact wellFormed_of_mem_pairs h
  · intro h
    refine ⟨write ps, pairs_intercalate h ?_⟩
    rw [List.filter_eq_self]
    intro text htext
    obtain ⟨pair, -, rfl⟩ := List.mem_map.1 htext
    simpa using trim_writePair_ne_nil pair

/-! ### The first bad part -/

theorem pairs_eq_error_iff_find? {bad : List Char} :
    pairs s = .error bad ↔ ((pieces ',' s).find? (Spoils ·)).map trim = some bad := by
  have hspoils : (fun part => decide (trim part ≠ []) && decide ('=' ∉ trim part))
      = fun part => decide (Spoils part) := funext fun part => (Bool.decide_and _ _).symm
  rw [pairs_eq_error_iff, find?_parts, hspoils]

/-- The first part that spoils a list is told. -/
theorem pairs_eq_error_iff_first {bad : List Char} :
    pairs s = .error bad ↔
      ∃ before part after, pieces ',' s = before ++ part :: after ∧ trim part = bad ∧ Spoils part ∧
        ∀ earlier ∈ before, ¬ Spoils earlier := by
  rw [pairs_eq_error_iff_find?, Option.map_eq_some_iff]
  simp only [List.find?_eq_some_iff_append, decide_eq_true_eq, Bool.not_eq_true',
    decide_eq_false_iff_not]
  constructor
  · rintro ⟨part, ⟨hpart, before, after, hpieces, hbefore⟩, hbad⟩
    exact ⟨before, part, after, hpieces, hbad, hpart, hbefore⟩
  · rintro ⟨before, part, after, hpieces, hbad, hpart, hbefore⟩
    exact ⟨part, ⟨hpart, before, after, hpieces, hbefore⟩, hbad⟩

theorem exists_pairs_eq_error_iff :
    (∃ bad, pairs s = .error bad) ↔ ∃ part ∈ pieces ',' s, Spoils part := by
  simp only [pairs_eq_error_iff_find?, Option.map_eq_some_iff]
  constructor
  · rintro ⟨-, part, hpart, -⟩
    exact ⟨part, List.mem_of_find?_eq_some hpart, by simpa using List.find?_some hpart⟩
  · rintro ⟨part, hmem, hpart⟩
    have hfound : ((pieces ',' s).find? (Spoils ·)).isSome :=
      List.find?_isSome.2 ⟨part, hmem, decide_eq_true hpart⟩
    obtain ⟨first, hfirst⟩ := Option.isSome_iff_exists.1 hfound
    exact ⟨trim first, first, hfirst, rfl⟩

/-- **Reading an option list inverts writing one.** Well-formed pairs, each written with an equals
sign and all joined by commas, are read back, with any blank texts between them; lists of
well-formed pairs are all that is ever read. A text is not read exactly where one of the parts
between its commas is not blank and has no equals sign, and the first such part is told, trimmed. -/
theorem pairs_inverts_writing :
    (∀ ps texts, (∀ pair ∈ ps, WellFormed pair) →
        texts.filter (trim · ≠ []) = ps.map writePair →
          pairs ([','].intercalate texts) = .ok ps) ∧
      (∀ ps, (∃ s, pairs s = .ok ps) ↔ ∀ pair ∈ ps, WellFormed pair) ∧
      (∀ s bad, pairs s = .error bad ↔
        ∃ before part after, pieces ',' s = before ++ part :: after ∧ trim part = bad ∧
          Spoils part ∧ ∀ earlier ∈ before, ¬ Spoils earlier) ∧
      ∀ s, (∃ bad, pairs s = .error bad) ↔ ∃ part ∈ pieces ',' s, Spoils part := by
  refine ⟨?_, ?_, ?_, ?_⟩
  · intro ps texts h htexts
    exact pairs_intercalate h htexts
  · intro ps
    exact exists_pairs_eq_ok_iff
  · intro s bad
    exact pairs_eq_error_iff_first
  · intro s
    exact exists_pairs_eq_error_iff

/-- Blank parts at both ends and in the middle, one of them an ideographic space, a value with an
equals sign, a pair without a key and one without a value. -/
theorem pairs_inverts_writing_blanks :
    let ps : List Pair := [("a".toList, "x=y".toList), ([], "1".toList), ("k".toList, [])]
    let texts : List (List Char) :=
      ["".toList, "a=x=y".toList, "\u3000 ".toList, "=1".toList, "k=".toList, "\t".toList]
    (∀ pair ∈ ps, WellFormed pair) ∧ texts.filter (trim · ≠ []) = ps.map writePair ∧
      pairs ",a=x=y,\u3000 ,=1,k=,\t".toList = .ok ps ∧
      pairs "a=1, oops ,b=2,bad".toList = .error "oops".toList := by
  intro ps texts
  have hps : ∀ pair ∈ ps, WellFormed pair := by
    intro pair hpair
    simp only [ps, List.mem_cons, List.not_mem_nil, or_false] at hpair
    rcases hpair with rfl | rfl | rfl <;> constructor <;> decide
  have htexts : texts.filter (trim · ≠ []) = ps.map writePair := by decide
  refine ⟨hps, htexts, pairs_inverts_writing.1 ps texts hps htexts, ?_⟩
  refine (pairs_inverts_writing.2.2.1 _ _).2 ⟨["a=1".toList], " oops ".toList,
    ["b=2".toList, "bad".toList], ?_, ?_, ?_, ?_⟩ <;> decide

end RecordRules.Options
