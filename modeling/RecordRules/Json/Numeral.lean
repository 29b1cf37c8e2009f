/-
Numbers in JSON documents.

A number has an optional minus sign, a whole part without superfluous zeros, and optionally a
fraction and an exponent. Without the last two it is an integer if 64 bits can hold it. Any other
number is a floating point one: as many leading digits as 64 bits can hold, scaled once by a power
of ten; zero with a minus sign is such a number.

* **`length_lt_of_scan`** — a number takes at least one character.
-/
import RecordRules.Decimal

namespace RecordRules.Json

/-- Why a text is no JSON document. -/
inductive Fault where
  | malformed
  | truncated
  deriving DecidableEq, Repr

/-- The value of a number. -/
inductive Numeral where
  | natural (n : UInt64)
  | negative (n : Int64)
  | real (x : Float)

/-- The parts of a written number, all of them runs of digits. -/
structure NumberText where
  negative : Bool
  whole : List Char
  fraction : Option (List Char)
  /-- The digits of the exponent and whether a minus sign stands before them. -/
  exponent : Option (Bool × List Char)
  deriving DecidableEq, Repr

namespace NumberText

/-! ### Reading the parts -/

/-- One or more digits. -/
def digits (s : List Char) : Except Fault (List Char × List Char) :=
  if s.takeWhile Char.isDigit = [] then .error (if s = [] then .truncated else .malformed)
  else .ok (s.takeWhile Char.isDigit, s.dropWhile Char.isDigit)

/-- The digits of a whole part: a zero stands alone. -/
def wholeDigits (s : List Char) : Except Fault (List Char × List Char) :=
  match digits s with
  | .ok ('0' :: _ :: _, _) => .error .malformed
  | result => result

/-- A fraction, where there is one. -/
def fractionDigits (s : List Char) : Except Fault (Option (List Char) × List Char) :=
  match s with
  | '.' :: rest => (digits rest).map fun (ds, rest) => (some ds, rest)
  | _ => .ok (none, s)

/-- The digits of an exponent, after its sign. -/
def signedDigits (s : List Char) : Except Fault ((Bool × List Char) × List Char) :=
  match s with
  | '-' :: rest => (digits rest).map fun (ds, rest) => ((true, ds), rest)
  | '+' :: rest => (digits rest).map fun (ds, rest) => ((false, ds), rest)
  | _ => (digits s).map fun (ds, rest) => ((false, ds), rest)

/-- An exponent, where there is one. -/
def exponentDigits (s : List Char) : Except Fault (Option (Bool × List Char) × List Char) :=
  match s with
  | 'e' :: rest | 'E' :: rest => (signedDigits rest).map fun (e, rest) => (some e, rest)
  | _ => .ok (none, s)

/-- A number without its sign. -/
def scanUnsigned (negative : Bool) (s : List Char) : Except Fault (NumberText × List Char) := do
  let (whole, s) ← wholeDigits s
  let (fraction, s) ← fractionDigits s
  let (exponent, s) ← exponentDigits s
  return (⟨negative, whole, fraction, exponent⟩, s)

/-- The number at the head of a text, and the text after it. -/
def scan (s : List Char) : Except Fault (NumberText × List Char) :=
  match s with
  | '-' :: rest => scanUnsigned true rest
  | _ => scanUnsigned false s

/-! ### The value -/

/-- Appends digits to a number for as long as 64 bits can hold it, and gives what is left. -/
def accumulate (n : UInt64) : List Char → UInt64 × List Char
  | [] => (n, [])
  | d :: rest =>
    let next := 10 * n.toNat + (d.toNat - '0'.toNat)
    if next < UInt64.size then accumulate (UInt64.ofNat next) rest else (n, d :: rest)

/-- A power of ten, rounded to a floating point number. -/
def tenTo (n : Nat) : Float := Float.ofScientific 1 false n

/-- A number divided by a power of ten; the greatest power that there is comes first. -/
def scaleDown (x : Float) (power : Nat) : Float :=
  if power ≤ 308 then x / tenTo power
  else if x == 0.0 then x
  else scaleDown (x / tenTo 308) (power - 308)
termination_by power

/-- A number times a power of ten, where that is finite. -/
def scale? (x : Float) : Int → Option Float
  | .ofNat power =>
    if power ≤ 308 then
      let y := x * tenTo power
      if y.isInf then none else some y
    else if x == 0.0 then some x
    else none
  | .negSucc power => some (scaleDown x (power + 1))

/-- The exponent that is written. -/
def writtenExponent (t : NumberText) : Int :=
  match t.exponent with
  | some (true, ds) => -(Decimal.value ds : Int)
  | some (false, ds) => Decimal.value ds
  | none => 0

/-- The floating point value of a number, where it is finite. Digits of the whole part that are left
over raise the exponent; digits of the fraction that are used lower it. -/
def real? (t : NumberText) : Option Float :=
  let (n, left) := accumulate 0 t.whole
  let fraction := t.fraction.getD []
  let (m, unused) := accumulate n fraction
  let used := fraction.length - unused.length
  let exponent := (left.length : Int) - used + t.writtenExponent
  (scale? m.toFloat exponent).map fun x => if t.negative then -x else x

/-- The integer that a number is, if 64 bits can hold it. -/
def integer? (t : NumberText) : Option Numeral :=
  match t.fraction, t.exponent with
  | none, none =>
    let n := Decimal.value t.whole
    -- minus zero is left to the floating point numbers
    if t.negative then
      if 0 < n ∧ n ≤ UInt64.size / 2 then some (.negative (Int64.ofInt (-(n : Int)))) else none
    else if n < UInt64.size then some (.natural (UInt64.ofNat n)) else none
  | _, _ => none

/-- The value of a number, unless it is beyond all floating point numbers. -/
def value? (t : NumberText) : Option Numeral :=
  t.integer?.or (t.real?.map .real)

/-! ### Progress -/

theorem length_lt_of_digits {s ds rest : List Char} (h : digits s = .ok (ds, rest)) :
    rest.length < s.length := by
  unfold digits at h
  split at h
  · cases h
  · next hne =>
    simp only [Except.ok.injEq, Prod.mk.injEq] at h
    obtain ⟨-, rfl⟩ := h
    have hlen := congrArg List.length
      (List.takeWhile_append_dropWhile (p := Char.isDigit) (l := s))
    rw [List.length_append] at hlen
    have := List.length_pos_iff.2 hne
    omega

theorem length_lt_of_wholeDigits {s ds rest : List Char} (h : wholeDigits s = .ok (ds, rest)) :
    rest.length < s.length := by
  unfold wholeDigits at h
  split at h
  · cases h
  · exact length_lt_of_digits h

theorem length_le_of_fractionDigits {s rest : List Char} {ds : Option (List Char)}
    (h : fractionDigits s = .ok (ds, rest)) : rest.length ≤ s.length := by
  unfold fractionDigits at h
  split at h
  · next more =>
    cases hd : digits more with
    | error _ => rw [hd] at h; cases h
    | ok pair =>
      rw [hd] at h
      cases h
      have := length_lt_of_digits hd
      simp only [List.length_cons]
      omega
  · cases h; exact Nat.le_refl _

theorem length_lt_of_signedDigits {s rest : List Char} {e : Bool × List Char}
    (h : signedDigits s = .ok (e, rest)) : rest.length < s.length := by
  -- whatever the sign, the rest is that of a run of digits
  have hmap : ∀ {t : List Char} {negative : Bool},
      (digits t).map (fun (ds, rest) => ((negative, ds), rest)) = .ok (e, rest) →
        rest.length < t.length := by
    intro t negative h
    cases hd : digits t with
    | error _ => rw [hd] at h; cases h
    | ok pair => rw [hd] at h; cases h; exact length_lt_of_digits hd
  unfold signedDigits at h
  split at h
  · exact Nat.lt_succ_of_lt (hmap h)
  · exact Nat.lt_succ_of_lt (hmap h)
  · exact hmap h

theorem length_le_of_exponentDigits {s rest : List Char} {e : Option (Bool × List Char)}
    (h : exponentDigits s = .ok (e, rest)) : rest.length ≤ s.length := by
  have hmap : ∀ {t : List Char},
      (signedDigits t).map (fun (e, rest) => (some e, rest)) = .ok (e, rest) →
        rest.length ≤ t.length + 1 := by
    intro t h
    cases hd : signedDigits t with
    | error _ => rw [hd] at h; cases h
    | ok pair =>
      rw [hd] at h
      cases h
      have := length_lt_of_signedDigits hd
      omega
  unfold exponentDigits at h
  split at h
  · exact hmap h
  · exact hmap h
  · cases h; exact Nat.le_refl _

theorem length_lt_of_scanUnsigned {negative : Bool} {s rest : List Char} {t : NumberText}
    (h : scanUnsigned negative s = .ok (t, rest)) : rest.length < s.length := by
  simp only [scanUnsigned, bind, Except.bind, pure, Except.pure] at h
  cases hw : wholeDigits s with
  | error _ => rw [hw] at h; cases h
  | ok w =>
    rw [hw] at h
    cases hf : fractionDigits w.2 with
    | error _ => simp only [hf] at h; cases h
    | ok f =>
      simp only [hf] at h
      cases he : exponentDigits f.2 with
      | error _ => simp only [he] at h; cases h
      | ok e =>
        simp only [he] at h
        cases h
        have hw := length_lt_of_wholeDigits hw
        have hf := length_le_of_fractionDigits hf
        have he := length_le_of_exponentDigits he
        omega

theorem length_lt_of_scan {s rest : List Char} {t : NumberText} (h : scan s = .ok (t, rest)) :
    rest.length < s.length := by
  unfold scan at h
  split at h
  · exact Nat.lt_succ_of_lt (length_lt_of_scanUnsigned h)
  · exact length_lt_of_scanUnsigned h

end NumberText

end RecordRules.Json
