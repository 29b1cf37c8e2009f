/-
Blanks and trimming.

A blank is a character with the Unicode property White_Space: twenty-five code points. The zero
width space, the byte order mark, the Mongolian vowel separator and the four information
separators U+001C to U+001F are not among them.

* **`trimEnds_append`** — text dropped at both ends makes no difference;
* **`trimEnds_eq_self_iff`** — trimming changes nothing exactly where neither end can be dropped;
* **`trimEnds_trimEnds`** — trimming twice is trimming once.
-/

namespace RecordRules.Text

/-- Characters with the property White_Space. -/
def isBlank (c : Char) : Bool :=
  let code := c.toNat
  (0x09 ≤ code && code ≤ 0x0D) || code == 0x20 || code == 0x85 || code == 0xA0 || code == 0x1680
    || (0x2000 ≤ code && code ≤ 0x200A) || code == 0x2028 || code == 0x2029 || code == 0x202F
    || code == 0x205F || code == 0x3000

/-- Drops the characters satisfying `p` from both ends, and none from the middle. -/
def trimEnds (p : Char → Bool) (s : List Char) : List Char :=
  ((s.dropWhile p).reverse.dropWhile p).reverse

/-- Drops the blanks at both ends. -/
abbrev trim (s : List Char) : List Char := trimEnds isBlank s

/-! ### Dropping from both ends -/

variable {p : Char → Bool}

@[simp] theorem trimEnds_nil : trimEnds p [] = [] := rfl

theorem trimEnds_append {a b : List Char} (ha : ∀ c ∈ a, p c = true) (hb : ∀ c ∈ b, p c = true)
    (s : List Char) : trimEnds p (a ++ s ++ b) = trimEnds p s := by
  unfold trimEnds
  rw [List.append_assoc, List.dropWhile_append_of_pos ha, List.dropWhile_append]
  split
  · next h =>
    have hs : s.dropWhile p = [] := List.isEmpty_iff.1 h
    have hdrop : b.dropWhile p = [] := by
      rw [← List.append_nil b, List.dropWhile_append_of_pos hb, List.dropWhile_nil]
    rw [hs, hdrop]
  · rw [List.reverse_append, List.dropWhile_append_of_pos (by simpa using hb)]

theorem trimEnds_append_left {a : List Char} (ha : ∀ c ∈ a, p c = true) (s : List Char) :
    trimEnds p (a ++ s) = trimEnds p s := by
  simpa using trimEnds_append ha (b := []) (by simp) s

theorem trimEnds_append_right {b : List Char} (hb : ∀ c ∈ b, p c = true) (s : List Char) :
    trimEnds p (s ++ b) = trimEnds p s := by
  simpa using trimEnds_append (a := []) (by simp) hb s

theorem trimEnds_eq_self_iff {s : List Char} :
    trimEnds p s = s ↔ (∀ c ∈ s.head?, p c = false) ∧ ∀ c ∈ s.getLast?, p c = false := by
  constructor
  · intro h
    refine ⟨fun c hc => ?_, fun c hc => ?_⟩
    · -- the head of `s` survives the first `dropWhile`
      cases s with
      | nil => simp at hc
      | cons d rest =>
        obtain rfl : d = c := by simpa using hc
        cases hd : p d with
        | false => rfl
        | true =>
          exfalso
          have hlen := congrArg List.length h
          have h1 : (rest.dropWhile p).length ≤ rest.length := (List.dropWhile_sublist p).length_le
          have h2 := (List.dropWhile_sublist (l := (rest.dropWhile p).reverse) p).length_le
          simp [trimEnds, hd] at hlen h2
          omega
    · -- the last character is the head of what the second `dropWhile` leaves
      rw [← h] at hc
      simp only [trimEnds, List.getLast?_reverse] at hc
      have := List.head?_dropWhile_not p (s.dropWhile p).reverse
      cases hx : (List.dropWhile p (s.dropWhile p).reverse).head? with
      | none => simp [hx] at hc
      | some d =>
        simp only [hx, Option.mem_def, Option.some.injEq] at hc this
        subst hc
        simpa using this
  · rintro ⟨hhead, hlast⟩
    have h1 : s.dropWhile p = s := by
      cases s with
      | nil => rfl
      | cons c rest => simp [hhead c (by simp)]
    have h2 : s.reverse.dropWhile p = s.reverse := by
      cases h : s.reverse with
      | nil => rfl
      | cons c rest =>
        have : s.getLast? = some c := by rw [← List.head?_reverse, h]; rfl
        simp [hlast c this]
    rw [trimEnds, h1, h2, List.reverse_reverse]

theorem trimEnds_of_kept {s : List Char} (h : ∀ c ∈ s, p c = false) : trimEnds p s = s := by
  refine trimEnds_eq_self_iff.2 ⟨?_, ?_⟩
  · intro c hc
    exact h c (List.mem_of_head? hc)
  · intro c hc
    exact h c (List.mem_of_getLast? hc)

/-- A trimmed text is what it was between two droppable ends. -/
theorem exists_append_trimEnds (p : Char → Bool) (s : List Char) :
    ∃ a b, (∀ c ∈ a, p c = true) ∧ (∀ c ∈ b, p c = true) ∧ s = a ++ trimEnds p s ++ b := by
  refine ⟨s.takeWhile p, ((s.dropWhile p).reverse.takeWhile p).reverse, ?_, ?_, ?_⟩
  · exact fun c hc => List.all_eq_true.1 List.all_takeWhile c hc
  · exact fun c hc => List.all_eq_true.1 List.all_takeWhile c (List.mem_reverse.1 hc)
  · rw [trimEnds, List.append_assoc, ← List.reverse_append, List.takeWhile_append_dropWhile,
      List.reverse_reverse, List.takeWhile_append_dropWhile]

theorem mem_of_mem_trimEnds {c : Char} {s : List Char} (h : c ∈ trimEnds p s) : c ∈ s := by
  obtain ⟨a, b, -, -, hs⟩ := exists_append_trimEnds p s
  rw [hs]
  simp [h]

/-- Characters that are not dropped are all kept. -/
theorem mem_trimEnds_iff {c : Char} (hc : p c = false) {s : List Char} :
    c ∈ trimEnds p s ↔ c ∈ s := by
  refine ⟨mem_of_mem_trimEnds, ?_⟩
  intro h
  obtain ⟨a, b, ha, hb, hs⟩ := exists_append_trimEnds p s
  rw [hs, List.mem_append, List.mem_append] at h
  rcases h with (hca | hmem) | hcb
  · rw [ha c hca] at hc
    cases hc
  · exact hmem
  · rw [hb c hcb] at hc
    cases hc

@[simp] theorem trimEnds_trimEnds (s : List Char) : trimEnds p (trimEnds p s) = trimEnds p s := by
  -- the trimmed text is one between droppable ends twice: in `s`, and on its own
  obtain ⟨a, b, ha, hb, h⟩ := exists_append_trimEnds p s
  have hs := trimEnds_append ha hb (trimEnds p s)
  rw [← h] at hs
  exact hs.symm

end RecordRules.Text
