/-
What email addresses are, said in two ways.

As a pattern they are `[a-zA-Z0-9._%+-]+@[a-zA-Z0-9.-]+\.[a-zA-Z]{2,}`, which all of a text has to
match. The point in it can be any of those in a domain, so a text may match in several ways. Told by
their parts they are cut at the only at sign and at the last point, so there is one way at most. But
a top level has letters only, so no point can follow the one before it, and the two ways agree.

* **`pattern`**, **`Parts`** — the pattern, as a regular expression, and the parts of an address;
* **`mem_atLeast`** — what matches a repeated choice of characters;
* **`mem_pattern`** — what matches the pattern, by any of its points;
* **`isAddress_iff_parts`** — what is read as an address, by its parts;
* **`accepts_iff_matches`** — the rule for addresses lets exactly the texts pass that match.
-/
import Mathlib.Computability.RegularExpressions
import RecordRules.Rule
import RecordRules.Text.Ascii

namespace RecordRules.Email

open Text RegularExpression

/-- The characters before the at sign. -/
def mailboxChars : List Char := letters ++ digits ++ "._%+-".toList

/-- The characters after the at sign. -/
def domainChars : List Char := letters ++ digits ++ ".-".toList

/-! ### The pattern -/

/-- One of some characters. -/
def oneOf (cs : List Char) : RegularExpression Char := (cs.map .char).sum

/-- A pattern so many times or more. -/
def atLeast (n : ℕ) (p : RegularExpression Char) : RegularExpression Char := p ^ n * p.star

/-- The pattern of email addresses. -/
def pattern : RegularExpression Char :=
  atLeast 1 (oneOf mailboxChars) * .char '@' * atLeast 1 (oneOf domainChars) * .char '.'
    * atLeast 2 (oneOf letters)

/-! ### The parts -/

/-- An address with its parts: a mailbox, the only at sign and a domain, which is a host, its last
point and a top level. -/
structure Parts (s mailbox domain host top : List Char) : Prop where
  count_at : s.count '@' = 1
  eq_at : s = mailbox ++ '@' :: domain
  mailbox_ne_nil : mailbox ≠ []
  mem_mailboxChars : ∀ c ∈ mailbox, c ∈ mailboxChars
  mem_domainChars : ∀ c ∈ domain, c ∈ domainChars
  eq_point : domain = host ++ '.' :: top
  point_not_mem : '.' ∉ top
  host_ne_nil : host ≠ []
  two_le_length : 2 ≤ top.length
  mem_letters : ∀ c ∈ top, c ∈ letters

variable {cs w : List Char}

/-! ### Characters -/

theorem isLocalChar_iff {c : Char} : isLocalChar c = true ↔ c ∈ mailboxChars := by
  simp [isLocalChar, mailboxChars, isAlphanum_iff, or_assoc]

theorem isDomainChar_iff {c : Char} : isDomainChar c = true ↔ c ∈ domainChars := by
  simp [isDomainChar, domainChars, isAlphanum_iff, or_assoc]

theorem at_not_mem_mailboxChars : '@' ∉ mailboxChars := by decide

theorem at_not_mem_domainChars : '@' ∉ domainChars := by decide

theorem point_not_mem_letters : '.' ∉ letters := by decide

/-! ### Matching -/

theorem mem_char {c : Char} : w ∈ (char c).matches' ↔ w = [c] := Iff.rfl

theorem mem_oneOf : w ∈ (oneOf cs).matches' ↔ ∃ c ∈ cs, w = [c] := by
  unfold oneOf
  induction cs with
  | nil => simp [matches'_zero]
  | cons c cs ih =>
    rw [List.map_cons, List.sum_cons, matches'_add, Language.mem_add, mem_char, ih]
    simp

/-- A number of chosen characters is a text of that length. -/
theorem mem_oneOf_pow (n : ℕ) :
    w ∈ (oneOf cs).matches' ^ n ↔ w.length = n ∧ ∀ c ∈ w, c ∈ cs := by
  induction n generalizing w with
  | zero =>
    rw [pow_zero, Language.mem_one]
    constructor
    · rintro rfl
      simp
    · rintro ⟨hlength, -⟩
      exact List.length_eq_zero_iff.1 hlength
  | succ n ih =>
    rw [pow_succ', Language.mem_mul]
    constructor
    · rintro ⟨first, hfirst, rest, hrest, rfl⟩
      obtain ⟨c, hc, rfl⟩ := mem_oneOf.1 hfirst
      obtain ⟨hlength, hmem⟩ := ih.1 hrest
      exact ⟨by simp [hlength], by simpa [hc] using hmem⟩
    · rintro ⟨hlength, hmem⟩
      obtain ⟨c, rest, rfl⟩ := List.exists_cons_of_length_eq_add_one hlength
      have hrest := ih.2 ⟨by simpa using hlength, fun d hd => hmem d (by simp [hd])⟩
      exact ⟨[c], mem_oneOf.2 ⟨c, hmem c (by simp), rfl⟩, rest, hrest, rfl⟩

theorem mem_star_oneOf : w ∈ (oneOf cs).star.matches' ↔ ∀ c ∈ w, c ∈ cs := by
  rw [matches'_star, Language.kstar_eq_iSup_pow, Language.mem_iSup]
  simp only [mem_oneOf_pow, exists_eq_left']

theorem mem_atLeast (n : ℕ) :
    w ∈ (atLeast n (oneOf cs)).matches' ↔ n ≤ w.length ∧ ∀ c ∈ w, c ∈ cs := by
  rw [atLeast, matches'_mul, matches'_pow, Language.mem_mul]
  constructor
  · rintro ⟨first, hfirst, rest, hrest, rfl⟩
    obtain ⟨rfl, hmem⟩ := (mem_oneOf_pow n).1 hfirst
    have hmore := mem_star_oneOf.1 hrest
    refine ⟨by simp, ?_⟩
    intro c hc
    exact (List.mem_append.1 hc).elim (hmem c) (hmore c)
  · rintro ⟨hlength, hmem⟩
    refine ⟨w.take n, ?_, w.drop n, ?_, List.take_append_drop n w⟩
    · exact (mem_oneOf_pow n).2 ⟨by simpa using hlength, fun c hc => hmem c (List.mem_of_mem_take hc)⟩
    · exact mem_star_oneOf.2 fun c hc => hmem c (List.mem_of_mem_drop hc)

/-- The pattern splits a text at some at sign and at some point after it. -/
theorem mem_pattern :
    w ∈ pattern.matches' ↔
      ∃ mailbox host top, w = mailbox ++ '@' :: (host ++ '.' :: top) ∧
        (1 ≤ mailbox.length ∧ ∀ c ∈ mailbox, c ∈ mailboxChars) ∧
        (1 ≤ host.length ∧ ∀ c ∈ host, c ∈ domainChars) ∧
        (2 ≤ top.length ∧ ∀ c ∈ top, c ∈ letters) := by
  simp only [pattern, matches'_mul, Language.mem_mul, mem_atLeast, mem_char]
  constructor
  · rintro ⟨_, ⟨_, ⟨_, ⟨mailbox, hmailbox, _, rfl, rfl⟩, host, hhost, rfl⟩, _, rfl, rfl⟩, top, htop,
      rfl⟩
    exact ⟨mailbox, host, top, by simp, hmailbox, hhost, htop⟩
  · rintro ⟨mailbox, host, top, rfl, hmailbox, hhost, htop⟩
    exact ⟨_, ⟨_, ⟨_, ⟨mailbox, hmailbox, _, rfl, rfl⟩, host, hhost, rfl⟩, _, rfl, rfl⟩, top, htop,
      by simp⟩

/-! ### Parts -/

/-- No character on either side is an at sign, and none of a top level is a point. -/
theorem Parts.of_chars {mailbox host top : List Char} (hmailbox : mailbox ≠ [])
    (hmailboxChars : ∀ c ∈ mailbox, c ∈ mailboxChars)
    (hdomainChars : ∀ c ∈ host ++ '.' :: top, c ∈ domainChars) (hhost : host ≠ [])
    (htop : 2 ≤ top.length) (hletters : ∀ c ∈ top, c ∈ letters) :
    Parts (mailbox ++ '@' :: (host ++ '.' :: top)) mailbox (host ++ '.' :: top) host top := by
  have hbefore : '@' ∉ mailbox := fun h => at_not_mem_mailboxChars (hmailboxChars _ h)
  have hafter : '@' ∉ host ++ '.' :: top := fun h => at_not_mem_domainChars (hdomainChars _ h)
  have hcount : (mailbox ++ '@' :: (host ++ '.' :: top)).count '@' = 1 := by
    rw [List.count_append, List.count_cons_self, List.count_eq_zero_of_not_mem hbefore,
      List.count_eq_zero_of_not_mem hafter]
  exact ⟨hcount, rfl, hmailbox, hmailboxChars, hdomainChars, rfl,
    fun h => point_not_mem_letters (hletters _ h), hhost, htop, hletters⟩

/-- A text is read as an address exactly where it has the parts of one. -/
theorem isAddress_iff_parts :
    isAddress w = true ↔ ∃ mailbox domain host top, Parts w mailbox domain host top := by
  rw [isAddress_iff]
  constructor
  · rintro ⟨mailbox, domain, rfl, -, hmailbox, hlocal, hdomain, htop⟩
    obtain ⟨host, top, rfl, -, hhost, hlength, halpha⟩ := hasTopLevel_iff.1 htop
    exact ⟨mailbox, _, host, top, .of_chars hmailbox
      (fun c hc => isLocalChar_iff.1 (hlocal c hc)) (fun c hc => isDomainChar_iff.1 (hdomain c hc))
      hhost hlength fun c hc => isAlpha_iff.1 (halpha c hc)⟩
  · rintro ⟨mailbox, domain, host, top, h⟩
    have hbefore : '@' ∉ mailbox := fun hat => at_not_mem_mailboxChars (h.mem_mailboxChars _ hat)
    have htop : hasTopLevel domain = true :=
      hasTopLevel_iff.2 ⟨host, top, h.eq_point, h.point_not_mem, h.host_ne_nil, h.two_le_length,
        fun c hc => isAlpha_iff.2 (h.mem_letters c hc)⟩
    exact ⟨mailbox, domain, h.eq_at, hbefore, h.mailbox_ne_nil,
      fun c hc => isLocalChar_iff.2 (h.mem_mailboxChars c hc),
      fun c hc => isDomainChar_iff.2 (h.mem_domainChars c hc), htop⟩

/-- A text has the parts of an address exactly where it matches: the point that the pattern splits
at is the last one. -/
theorem exists_parts_iff_matches :
    (∃ mailbox domain host top, Parts w mailbox domain host top) ↔ w ∈ pattern.matches' := by
  rw [mem_pattern]
  constructor
  · rintro ⟨mailbox, domain, host, top, h⟩
    obtain rfl := h.eq_point
    have hhost : ∀ c ∈ host, c ∈ domainChars := fun c hc => h.mem_domainChars c (by simp [hc])
    exact ⟨mailbox, host, top, h.eq_at,
      ⟨List.length_pos_iff.2 h.mailbox_ne_nil, h.mem_mailboxChars⟩,
      ⟨List.length_pos_iff.2 h.host_ne_nil, hhost⟩, h.two_le_length, h.mem_letters⟩
  · rintro ⟨mailbox, host, top, rfl, ⟨hmailbox, hmailboxChars⟩, ⟨hhost, hhostChars⟩, htop,
      hletters⟩
    have hdomainChars : ∀ c ∈ host ++ '.' :: top, c ∈ domainChars := by
      intro c hc
      rcases List.mem_append.1 hc with hc | hc
      · exact hhostChars c hc
      · rcases List.mem_cons.1 hc with rfl | hc
        · decide
        · exact List.mem_append_left _ (List.mem_append_left _ (hletters c hc))
    exact ⟨mailbox, _, host, top, .of_chars (List.length_pos_iff.1 hmailbox) hmailboxChars
      hdomainChars (List.length_pos_iff.1 hhost) htop hletters⟩

/-! ### The rule -/

/-- **The rule for addresses accepts the language of its pattern.** A text passes exactly where it
has one at sign, a mailbox before it and a domain after it, whose last point stands between a host
and a top level of two or more letters; and it has these parts exactly where all of it matches the
pattern, whichever of its points the pattern splits at. -/
theorem accepts_iff_matches (s : String) :
    (Rule.email.failure? (.text s) = none ↔
        ∃ mailbox domain host top, Parts s.toList mailbox domain host top) ∧
      ((∃ mailbox domain host top, Parts s.toList mailbox domain host top) ↔
        s.toList ∈ pattern.matches') := by
  refine ⟨?_, exists_parts_iff_matches⟩
  rw [← isAddress_iff_parts, Rule.failure?, Option.map_eq_none_iff]
  show (if isAddress s.toList then none else some Violation.notEmail) = none ↔ _
  simp

end RecordRules.Email
