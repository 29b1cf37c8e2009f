/-
Email addresses.

An address is a local part, an at sign and a domain. The domain ends in a point and two or more
letters, and something stands before that point. Only ASCII letters and digits count, with a few
signs on either side.

* **`isAddress_iff`** — an address, said by its parts.
-/
import RecordRules.Text.Cut

namespace RecordRules.Email

open Text

/-- The characters of a local part. -/
def isLocalChar (c : Char) : Bool := c.isAlphanum || "._%+-".toList.contains c

/-- The characters of a domain. -/
def isDomainChar (c : Char) : Bool := c.isAlphanum || ".-".toList.contains c

/-- Whether a domain ends in a point and two or more letters, with something before the point. -/
def hasTopLevel (domain : List Char) : Bool :=
  -- the last point, since letters alone may follow it
  match cutLast '.' domain with
  | some (host, top) => host ≠ [] && 2 ≤ top.length && top.all Char.isAlpha
  | none => false

/-- Whether a text is an email address. -/
def isAddress (s : List Char) : Bool :=
  match cut '@' s with
  | some (mailbox, domain) =>
    mailbox ≠ [] && mailbox.all isLocalChar && domain.all isDomainChar && hasTopLevel domain
  | none => false

theorem hasTopLevel_iff {domain : List Char} :
    hasTopLevel domain = true ↔
      ∃ host top, domain = host ++ '.' :: top ∧ '.' ∉ top ∧ host ≠ [] ∧ 2 ≤ top.length ∧
        ∀ c ∈ top, c.isAlpha = true := by
  unfold hasTopLevel
  constructor
  · intro h
    split at h
    · next host top hcut =>
      obtain ⟨hn, rfl⟩ := cutLast_eq_some_iff.1 hcut
      simp only [Bool.and_eq_true, decide_eq_true_eq, List.all_eq_true] at h
      exact ⟨host, top, rfl, hn, h.1.1, h.1.2, h.2⟩
    · cases h
  · rintro ⟨host, top, rfl, hn, hhost, hlen, hall⟩
    rw [cutLast_eq_some_iff.2 ⟨hn, rfl⟩]
    simpa [hhost, hlen] using hall

theorem isAddress_iff {s : List Char} :
    isAddress s = true ↔
      ∃ mailbox domain, s = mailbox ++ '@' :: domain ∧ '@' ∉ mailbox ∧ mailbox ≠ [] ∧
        (∀ c ∈ mailbox, isLocalChar c = true) ∧ (∀ c ∈ domain, isDomainChar c = true) ∧
        hasTopLevel domain = true := by
  unfold isAddress
  constructor
  · intro h
    split at h
    · next mailbox domain hcut =>
      obtain ⟨hn, rfl⟩ := cut_eq_some_iff.1 hcut
      simp only [Bool.and_eq_true, decide_eq_true_eq, List.all_eq_true] at h
      exact ⟨mailbox, domain, rfl, hn, h.1.1.1, h.1.1.2, h.1.2, h.2⟩
    · cases h
  · rintro ⟨mailbox, domain, rfl, hn, hne, hlocal, hdomain, htop⟩
    rw [cut_append_cons hn]
    simpa [hne, htop] using ⟨hlocal, hdomain⟩

end RecordRules.Email
