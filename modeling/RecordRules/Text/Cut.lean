/-
Cutting text at a separator.

`cut` splits once, at the first separator, `cutLast` at the last; `pieces` splits at every one, so
that a text always has at least one piece and an empty text is one empty piece.

* **`cut_eq_some_iff`**, **`cut_eq_none_iff`** — a cut is at the first separator, and fails only
  where there is none;
* **`pieces_eq_splitOn`** — the pieces are those of the library's own `List.splitOn`, whose laws
  they have: joined by the separator they are the text, and texts without separators, so joined,
  have themselves for pieces;
* **`pieces_append_of_not_mem`**, **`pieces_concat_of_ne`** — what is put at an end of a text, with
  no separator in it, belongs to the piece there.
-/

namespace RecordRules.Text

/-- The text before and after the first `sep`, where there is one. -/
def cut (sep : Char) : List Char → Option (List Char × List Char)
  | [] => none
  | c :: rest =>
    if c = sep then some ([], rest)
    else (cut sep rest).map fun (before, after) => (c :: before, after)

/-- The first piece and the text after its separator: all of a text without a separator, and
nothing. -/
def firstPiece (sep : Char) (s : List Char) : List Char × List Char :=
  (cut sep s).getD (s, [])

/-- The text before and after the last `sep`, where there is one. -/
def cutLast (sep : Char) (s : List Char) : Option (List Char × List Char) :=
  (cut sep s.reverse).map fun (after, before) => (before.reverse, after.reverse)

/-- The texts between separators, in order. -/
def pieces (sep : Char) : List Char → List (List Char)
  | [] => [[]]
  | c :: rest =>
    if c = sep then [] :: pieces sep rest
    else match pieces sep rest with
      | [] => [[c]]
      | piece :: more => (c :: piece) :: more

variable {sep : Char} {s a b : List Char}

/-! ### One cut -/

@[simp] theorem cut_append_cons (h : sep ∉ a) : cut sep (a ++ sep :: b) = some (a, b) := by
  induction a with
  | nil => simp [cut]
  | cons c a ih =>
    have hc : c ≠ sep := fun hc => h (by simp [hc])
    have ha : sep ∉ a := fun ha => h (by simp [ha])
    simp [cut, hc, ih ha]

theorem cut_eq_none_iff : cut sep s = none ↔ sep ∉ s := by
  induction s with
  | nil => simp [cut]
  | cons c s ih =>
    by_cases hc : c = sep
    · simp [cut, hc]
    · simp [cut, hc, ih, Ne.symm hc]

theorem cut_eq_some_iff : cut sep s = some (a, b) ↔ sep ∉ a ∧ s = a ++ sep :: b := by
  constructor
  · intro h
    induction s generalizing a with
    | nil => simp [cut] at h
    | cons c s ih =>
      by_cases hc : c = sep
      · simp only [cut, hc, if_true, Option.some.injEq, Prod.mk.injEq] at h
        obtain ⟨rfl, rfl⟩ := h
        simp [hc]
      · simp only [cut, hc, if_false, Option.map_eq_some_iff, Prod.mk.injEq, Prod.exists] at h
        obtain ⟨a', b', hs, rfl, rfl⟩ := h
        obtain ⟨hn, rfl⟩ := ih hs
        simp [hn, Ne.symm hc]
  · rintro ⟨h, rfl⟩
    exact cut_append_cons h

theorem cutLast_eq_some_iff : cutLast sep s = some (a, b) ↔ sep ∉ b ∧ s = a ++ sep :: b := by
  simp only [cutLast, Option.map_eq_some_iff, Prod.exists, Prod.mk.injEq, cut_eq_some_iff]
  constructor
  · rintro ⟨b', a', ⟨hn, hs⟩, rfl, rfl⟩
    refine ⟨by simpa using hn, ?_⟩
    simpa using congrArg List.reverse hs
  · rintro ⟨hn, rfl⟩
    exact ⟨b.reverse, a.reverse, ⟨by simpa using hn, by simp⟩, by simp, by simp⟩

/-! ### The first piece -/

theorem firstPiece_of_mem (h : sep ∉ a) : firstPiece sep (a ++ sep :: b) = (a, b) := by
  simp [firstPiece, h]

theorem firstPiece_of_not_mem (h : sep ∉ s) : firstPiece sep s = (s, []) := by
  simp [firstPiece, cut_eq_none_iff.2 h]

theorem length_firstPiece_snd_lt (sep : Char) (h : s ≠ []) :
    (firstPiece sep s).2.length < s.length := by
  unfold firstPiece
  cases hs : cut sep s with
  | none => simpa using List.length_pos_iff.2 h
  | some ab =>
    obtain ⟨-, rfl⟩ := cut_eq_some_iff.1 hs
    simp only [Option.getD_some, List.length_append, List.length_cons]
    omega

/-! ### All pieces -/

theorem pieces_eq_splitOn (sep : Char) (s : List Char) : pieces sep s = s.splitOn sep := by
  induction s with
  | nil => exact (List.splitOn_nil sep).symm
  | cons c s ih =>
    rw [List.splitOn_cons_eq_if_modifyHead, ← ih]
    obtain ⟨piece, more, hs⟩ := List.exists_cons_of_ne_nil (List.splitOn_ne_nil sep s)
    by_cases hc : c = sep
    · simp [pieces, hc]
    · simp [pieces, hc, ih.trans hs]

theorem pieces_ne_nil (sep : Char) (s : List Char) : pieces sep s ≠ [] := by
  rw [pieces_eq_splitOn]
  exact List.splitOn_ne_nil sep s

theorem pieces_of_not_mem (h : sep ∉ s) : pieces sep s = [s] := by
  rw [pieces_eq_splitOn, List.splitOn_eq_singleton h]

@[simp] theorem pieces_nil (sep : Char) : pieces sep [] = [[]] := rfl

@[simp] theorem pieces_cons_self (sep : Char) (s : List Char) :
    pieces sep (sep :: s) = [] :: pieces sep s := by
  simp [pieces]

theorem pieces_append_cons (sep : Char) (a b : List Char) :
    pieces sep (a ++ sep :: b) = pieces sep a ++ pieces sep b := by
  simp only [pieces_eq_splitOn, List.splitOn_append_cons_self]

theorem pieces_of_cut (h : sep ∉ a) : pieces sep (a ++ sep :: b) = a :: pieces sep b := by
  rw [pieces_append_cons, pieces_of_not_mem h, List.singleton_append]

/-- The pieces are the first piece and those of the text after its separator, if it has one. -/
theorem pieces_eq_firstPiece (sep : Char) (s : List Char) :
    pieces sep s = (firstPiece sep s).1 :: pieces sep (firstPiece sep s).2 ∨
      (firstPiece sep s).2 = [] ∧ pieces sep s = [(firstPiece sep s).1] := by
  unfold firstPiece
  cases h : cut sep s with
  | none => exact .inr ⟨rfl, pieces_of_not_mem (cut_eq_none_iff.1 h)⟩
  | some ab =>
    obtain ⟨hn, rfl⟩ := cut_eq_some_iff.1 h
    exact .inl (pieces_of_cut hn)

theorem not_mem_of_mem_pieces {piece : List Char} (h : piece ∈ pieces sep s) : sep ∉ piece := by
  induction s generalizing piece with
  | nil =>
    obtain rfl : piece = [] := by simpa using h
    simp
  | cons c s ih =>
    obtain ⟨first, more, hs⟩ := List.exists_cons_of_ne_nil (pieces_ne_nil sep s)
    rw [hs] at ih
    by_cases hc : c = sep
    · rw [hc, pieces_cons_self, hs, List.mem_cons] at h
      rcases h with rfl | h
      · simp
      · exact ih h
    · have hcs : pieces sep (c :: s) = (c :: first) :: more := by simp [pieces, hc, hs]
      rw [hcs, List.mem_cons] at h
      rcases h with rfl | h
      · simpa [Ne.symm hc] using ih List.mem_cons_self
      · exact ih (List.mem_cons_of_mem _ h)

/-! ### Joined texts -/

theorem intercalate_pieces (sep : Char) (s : List Char) :
    [sep].intercalate (pieces sep s) = s := by
  rw [pieces_eq_splitOn, List.intercalate_splitOn]

theorem pieces_intercalate {ps : List (List Char)} (hne : ps ≠ []) (h : ∀ p ∈ ps, sep ∉ p) :
    pieces sep ([sep].intercalate ps) = ps := by
  rw [pieces_eq_splitOn, List.splitOn_intercalate sep h hne]

/-- Texts joined by the separator: the first one, and the others each after a separator. -/
theorem intercalate_cons (sep : Char) (p : List Char) (ps : List (List Char)) :
    [sep].intercalate (p :: ps) = p ++ ps.flatMap (sep :: ·) := by
  induction ps generalizing p with
  | nil => simp
  | cons q ps ih => rw [List.intercalate_cons_cons, ih]; simp

/-- Joined texts end as the last of them does, whatever it is. -/
theorem exists_intercalate_concat (sep : Char) (init : List (List Char)) :
    ∃ before, ∀ last, [sep].intercalate (init ++ [last]) = before ++ last := by
  cases init with
  | nil => exact ⟨[], fun _ => List.intercalate_singleton⟩
  | cons first more =>
    refine ⟨first ++ more.flatMap (sep :: ·) ++ [sep], ?_⟩
    intro last
    rw [List.cons_append, intercalate_cons]
    simp

/-- A text without separators, put in front, belongs to the first piece. -/
theorem pieces_append_of_not_mem {piece : List Char} {more : List (List Char)} (ha : sep ∉ a)
    (h : pieces sep s = piece :: more) : pieces sep (a ++ s) = (a ++ piece) :: more := by
  have hnot : ∀ p ∈ piece :: more, sep ∉ p := fun p hp => not_mem_of_mem_pieces (h ▸ hp)
  have hjoin : a ++ s = [sep].intercalate ((a ++ piece) :: more) := by
    rw [← intercalate_pieces sep s, h, intercalate_cons, intercalate_cons, List.append_assoc]
  rw [hjoin, pieces_intercalate (List.cons_ne_nil _ _)]
  intro p hp
  rcases List.mem_cons.1 hp with rfl | hp
  · simpa [ha] using hnot piece List.mem_cons_self
  · exact hnot p (List.mem_cons_of_mem _ hp)

theorem pieces_cons_of_ne {c : Char} (hc : c ≠ sep) (s : List Char) :
    ∃ piece more, pieces sep s = piece :: more ∧ pieces sep (c :: s) = (c :: piece) :: more := by
  obtain ⟨piece, more, h⟩ := List.exists_cons_of_ne_nil (pieces_ne_nil sep s)
  have hmem : sep ∉ [c] := by simpa using hc.symm
  exact ⟨piece, more, h, pieces_append_of_not_mem hmem h⟩

/-- A character at the end that is no separator belongs to the last piece. -/
theorem pieces_concat_of_ne {c : Char} (hc : c ≠ sep) (s : List Char) :
    ∃ init last, pieces sep s = init ++ [last] ∧ pieces sep (s ++ [c]) = init ++ [last ++ [c]] := by
  obtain ⟨init, last, h⟩ :=
    (List.eq_nil_or_concat (pieces sep s)).resolve_left (pieces_ne_nil sep s)
  rw [List.concat_eq_append] at h
  have hnot : ∀ p ∈ init ++ [last], sep ∉ p := fun p hp => not_mem_of_mem_pieces (h ▸ hp)
  obtain ⟨before, hbefore⟩ := exists_intercalate_concat sep init
  have hjoin : s ++ [c] = [sep].intercalate (init ++ [last ++ [c]]) := by
    rw [← intercalate_pieces sep s, h, hbefore, hbefore, List.append_assoc]
  refine ⟨init, last, h, ?_⟩
  rw [hjoin, pieces_intercalate (by simp)]
  intro p hp
  rcases List.mem_append.1 hp with hp | hp
  · exact hnot p (List.mem_append_left _ hp)
  · obtain rfl := List.mem_singleton.1 hp
    simpa [hc.symm] using hnot last (by simp)

end RecordRules.Text
