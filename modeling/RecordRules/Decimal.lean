/-
Whole numbers in decimal.

`write` gives the shortest numeral of a natural number. `readSize?` reads a size, a number of 64
bits: one plus sign is allowed in front, then there must be ASCII digits and nothing else; leading
zeros are harmless and a value of 2^64 or more is no size.

* **`write_eq_toDigits`**, **`ofNat_eq_repr`** — numerals are those by which numbers are shown
  elsewhere;
* **`value_write`** — reading a written number gives it back;
* **`readSize?_write`** — every size can be written and read.
-/

namespace RecordRules.Decimal

/-- The digit of a number below ten. -/
def digit (n : Nat) : Char := Char.ofNat ('0'.toNat + n)

/-- The decimal numeral of a number, without leading zeros. -/
def write (n : Nat) : List Char :=
  if n < 10 then [digit n] else write (n / 10) ++ [digit (n % 10)]

/-- The number that a run of digits denotes. -/
def value (digits : List Char) : Nat :=
  digits.foldl (fun n c => 10 * n + (c.toNat - '0'.toNat)) 0

/-- A text less one plus sign in front. -/
def withoutPlus : List Char → List Char
  | '+' :: rest => rest
  | s => s

/-- Reads one or more digits for a number below 2^64. -/
def readDigits? (digits : List Char) : Option UInt64 :=
  if digits ≠ [] ∧ digits.all Char.isDigit ∧ value digits < UInt64.size then
    some (UInt64.ofNat (value digits))
  else none

/-- Reads a size: an optional plus sign, then one or more digits for a number below 2^64. -/
def readSize? (s : List Char) : Option UInt64 :=
  readDigits? (withoutPlus s)

/-- The decimal numeral of a number, as a string. -/
def ofNat (n : Nat) : String := String.ofList (write n)

/-- The decimal numeral of an integer: a minus sign in front of a negative one. -/
def ofInt (i : Int) : String :=
  match i with
  | .ofNat n => ofNat n
  | .negSucc n => String.ofList ('-' :: write (n + 1))

/-! ### The library's numerals -/

theorem digit_eq_digitChar {n : Nat} (h : n < 10) : digit n = n.digitChar := by
  have hall : ∀ n : Fin 10, digit n = Nat.digitChar n := by decide
  exact hall ⟨n, h⟩

theorem write_eq_toDigits (n : Nat) : write n = Nat.toDigits 10 n := by
  fun_induction write n with
  | case1 n h => rw [Nat.toDigits_of_lt_base h, digit_eq_digitChar h]
  | case2 n h ih =>
    rw [Nat.toDigits_of_base_le (by decide) (Nat.not_lt.1 h), ih,
      digit_eq_digitChar (Nat.mod_lt n (by decide))]

theorem ofNat_eq_repr (n : Nat) : ofNat n = n.repr := by
  rw [ofNat, write_eq_toDigits, Nat.repr_eq_ofList_toDigits]

theorem value_eq_ofDigitChars (digits : List Char) : value digits = Nat.ofDigitChars 10 digits 0 :=
  Nat.ofDigitChars_eq_foldl.symm

/-! ### Reading what was written -/

@[simp] theorem value_write (n : Nat) : value (write n) = n := by
  rw [value_eq_ofDigitChars, write_eq_toDigits, Nat.ofDigitChars_ten_toDigits]

theorem write_ne_nil (n : Nat) : write n ≠ [] := by
  rw [write_eq_toDigits]
  exact Nat.toDigits_ne_nil

theorem all_isDigit_write (n : Nat) : (write n).all Char.isDigit = true := by
  rw [write_eq_toDigits, List.all_eq_true]
  intro c hc
  exact Nat.isDigit_of_mem_toDigits (by decide) (by decide) hc

@[simp] theorem readDigits?_write (n : UInt64) : readDigits? (write n.toNat) = some n := by
  have hlt : value (write n.toNat) < UInt64.size := by
    rw [value_write]
    exact n.toNat_lt
  rw [readDigits?, if_pos ⟨write_ne_nil _, all_isDigit_write _, hlt⟩, value_write]
  simp

/-- A plus sign is no digit, so there is none to drop from a run of digits. -/
theorem withoutPlus_of_digits {s : List Char} (h : s.all Char.isDigit = true) :
    withoutPlus s = s := by
  unfold withoutPlus
  split
  · simp [Char.isDigit] at h
  · rfl

@[simp] theorem readSize?_write (n : UInt64) : readSize? (write n.toNat) = some n := by
  rw [readSize?, withoutPlus_of_digits (all_isDigit_write _), readDigits?_write]

end RecordRules.Decimal
