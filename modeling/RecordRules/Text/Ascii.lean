/-
The ASCII letters and digits, one by one.

* **`isDigit_iff`**, **`isUpper_iff`**, **`isLower_iff`**, **`isAlpha_iff`** — a character is told
  as a digit or a letter exactly where it is one of these, so no other digit or letter of Unicode is.
-/

namespace RecordRules.Text

/-- The decimal digits. -/
def digits : List Char := "0123456789".toList

/-- The small letters. -/
def smallLetters : List Char := "abcdefghijklmnopqrstuvwxyz".toList

/-- The capital letters. -/
def capitalLetters : List Char := "ABCDEFGHIJKLMNOPQRSTUVWXYZ".toList

/-- The letters. -/
def letters : List Char := smallLetters ++ capitalLetters

variable {c : Char}

/-- A class of ASCII characters is an alphabet if it is so as far as ASCII goes. -/
theorem iff_mem_of_ascii {p : Char → Bool} {alphabet : List Char}
    (hascii : ∀ n : Fin 0x80, p (Char.ofNat n) = true ↔ Char.ofNat n ∈ alphabet)
    (halphabet : (alphabet.all fun c => c.toNat < 0x80) = true)
    (hclass : p c = true → c.toNat < 0x80) : p c = true ↔ c ∈ alphabet := by
  have hiff : c.toNat < 0x80 → (p c = true ↔ c ∈ alphabet) := by
    intro hlt
    have h := hascii ⟨c.toNat, hlt⟩
    rwa [Char.ofNat_toNat] at h
  constructor
  · intro h
    exact (hiff (hclass h)).1 h
  · intro h
    exact (hiff (of_decide_eq_true (List.all_eq_true.1 halphabet c h))).2 h

theorem isDigit_iff : c.isDigit = true ↔ c ∈ digits := by
  refine iff_mem_of_ascii (by decide +kernel) (by decide) ?_
  intro h
  obtain ⟨-, hle⟩ := Char.isDigit_iff_toNat.1 h
  exact Nat.lt_of_le_of_lt hle (by decide)

theorem isUpper_iff : c.isUpper = true ↔ c ∈ capitalLetters := by
  refine iff_mem_of_ascii (by decide +kernel) (by decide) ?_
  intro h
  have hle : c.toNat ≤ 'Z'.toNat := (of_decide_eq_true h).2
  exact Nat.lt_of_le_of_lt hle (by decide)

theorem isLower_iff : c.isLower = true ↔ c ∈ smallLetters := by
  refine iff_mem_of_ascii (by decide +kernel) (by decide) ?_
  intro h
  have hle : c.toNat ≤ 'z'.toNat := of_decide_eq_true (Bool.and_eq_true_iff.1 h).2
  exact Nat.lt_of_le_of_lt hle (by decide)

theorem isAlpha_iff : c.isAlpha = true ↔ c ∈ letters := by
  show (c.isUpper || c.isLower) = true ↔ _
  rw [Bool.or_eq_true, isUpper_iff, isLower_iff, letters, List.mem_append, or_comm]

theorem isAlphanum_iff : c.isAlphanum = true ↔ c ∈ letters ++ digits := by
  show (c.isAlpha || c.isDigit) = true ↔ _
  rw [Bool.or_eq_true, isAlpha_iff, isDigit_iff, List.mem_append]

end RecordRules.Text
