/-
Numerals: which texts denote which number.

A numeral is one plus sign or none, then one or more digits; leading zeros are allowed. Every
numeral denotes a number, and sizes are read from the numerals of numbers below 2^64 and from no
other text.

* **`value_eq_ofDigits`** — a run of digits denotes the number with these digits;
* **`readSize?_eq_some_iff`**, **`readSize?_eq_none_iff`** — which size is read from a text, and
  where none is;
* **`ofNat_inj`** — written numerals tell numbers apart.
-/
import Mathlib.Data.List.Induction
import Mathlib.Data.Nat.Digits.Defs
import RecordRules.Decimal
import RecordRules.Text.Ascii

namespace RecordRules.Decimal

/-- A text denotes a number: after one plus sign or none come digits, the last one for the ones, the
one before it for the tens, and so on. -/
def Denotes (s : List Char) (n : Nat) : Prop :=
  ∃ sign digits, (sign = [] ∨ sign = ['+']) ∧ digits ≠ [] ∧ (∀ c ∈ digits, c ∈ Text.digits) ∧
    s = sign ++ digits ∧ n = Nat.ofDigits 10 (digits.reverse.map Text.digits.idxOf)

variable {s digits : List Char} {n : UInt64}

/-! ### Runs of digits -/

theorem value_concat (digits : List Char) (c : Char) :
    value (digits ++ [c]) = 10 * value digits + (c.toNat - '0'.toNat) := by
  simp [value]

theorem value_eq_ofDigits (h : ∀ c ∈ digits, c ∈ Text.digits) :
    value digits = Nat.ofDigits 10 (digits.reverse.map Text.digits.idxOf) := by
  have hall : (Text.digits.all fun c => c.toNat - '0'.toNat == Text.digits.idxOf c) = true := by
    decide
  have hdigit : ∀ c ∈ Text.digits, c.toNat - '0'.toNat = Text.digits.idxOf c := fun c hc =>
    beq_iff_eq.1 (List.all_eq_true.1 hall c hc)
  -- reading goes by the last digit, which is the first one of the sum
  induction digits using List.reverseRecOn with
  | nil => rfl
  | append_singleton digits c ih =>
    rw [value_concat, ih fun d hd => h d (by simp [hd]), hdigit c (h c (by simp)),
      List.reverse_append, List.reverse_singleton, List.singleton_append, List.map_cons,
      Nat.ofDigits_cons, Nat.add_comm]

theorem readDigits?_eq_some_iff :
    readDigits? digits = some n ↔
      digits ≠ [] ∧ (∀ c ∈ digits, c ∈ Text.digits) ∧ value digits = n.toNat := by
  have hall : digits.all Char.isDigit = true ↔ ∀ c ∈ digits, c ∈ Text.digits := by
    simp only [List.all_eq_true, Text.isDigit_iff]
  unfold readDigits?
  rw [Option.ite_none_right_eq_some, hall, Option.some.injEq]
  constructor
  · rintro ⟨⟨hne, hdigits, hlt⟩, rfl⟩
    exact ⟨hne, hdigits, (UInt64.toNat_ofNat_of_lt' hlt).symm⟩
  · rintro ⟨hne, hdigits, hvalue⟩
    rw [hvalue]
    exact ⟨⟨hne, hdigits, n.toNat_lt⟩, UInt64.ofNat_toNat⟩

/-! ### Sizes -/

theorem exists_sign_append (s : List Char) :
    ∃ sign, (sign = [] ∨ sign = ['+']) ∧ s = sign ++ withoutPlus s := by
  unfold withoutPlus
  split
  · exact ⟨['+'], .inr rfl, rfl⟩
  · exact ⟨[], .inl rfl, rfl⟩

theorem withoutPlus_append {sign : List Char} (hsign : sign = [] ∨ sign = ['+'])
    (h : ∀ c ∈ digits, c ∈ Text.digits) : withoutPlus (sign ++ digits) = digits := by
  rcases hsign with rfl | rfl
  · refine withoutPlus_of_digits (List.all_eq_true.2 fun c hc => ?_)
    exact Text.isDigit_iff.2 (h c hc)
  · rfl

/-- A size is read from the numerals of numbers below 2^64. -/
theorem readSize?_eq_some_iff : readSize? s = some n ↔ Denotes s n.toNat := by
  rw [readSize?, readDigits?_eq_some_iff]
  constructor
  · rintro ⟨hne, hdigits, hvalue⟩
    obtain ⟨sign, hsign, hs⟩ := exists_sign_append s
    rw [value_eq_ofDigits hdigits] at hvalue
    exact ⟨sign, withoutPlus s, hsign, hne, hdigits, hs, hvalue.symm⟩
  · rintro ⟨sign, digits, hsign, hne, hdigits, rfl, hvalue⟩
    rw [withoutPlus_append hsign hdigits]
    exact ⟨hne, hdigits, by rw [hvalue, value_eq_ofDigits hdigits]⟩

/-- No size is read from a text that is no numeral, or the numeral of a number that is too large. -/
theorem readSize?_eq_none_iff : readSize? s = none ↔ ∀ n < 2 ^ 64, ¬ Denotes s n := by
  rw [Option.eq_none_iff_forall_ne_some]
  constructor
  · intro h n hn hdenotes
    refine h (UInt64.ofNat n) (readSize?_eq_some_iff.2 ?_)
    rwa [UInt64.toNat_ofNat_of_lt' hn]
  · intro h n hread
    exact h n.toNat n.toNat_lt (readSize?_eq_some_iff.1 hread)

theorem ofNat_inj {m n : Nat} : ofNat m = ofNat n ↔ m = n := by
  refine ⟨?_, congrArg ofNat⟩
  intro h
  have hvalue : value (write m) = value (write n) := congrArg value (String.ofList_inj.1 h)
  rwa [value_write, value_write] at hvalue

end RecordRules.Decimal
