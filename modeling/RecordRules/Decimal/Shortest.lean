/-
The shortest decimal of a binary number, and its written forms.

A finite floating point number stands for every real that rounds to it. Its shortest decimal is the
point of the coarsest decimal grid (the multiples of a power of ten) that meets these reals, and on
that grid the point nearest to the number. A layout decides how the digits are written: which
exponents are spelled out as zeros, how other exponents are marked and which of two equally near
decimals is taken.

* **`Span.hit?_mem`** — the point that a grid gives lies among the reals of the number.

Design notes: all arithmetic is on natural numbers over one denominator. On a grid only the two
neighbours of the number need a look, for if any point of the grid rounds to the number, one of
these does.
-/
import RecordRules.Decimal

namespace RecordRules.Decimal

/-- Which of two equally near decimals is taken. -/
inductive Tie where
  | up
  | toEven
  deriving DecidableEq, Repr

/-- The reals that round to a positive number: from `low` to `high` over `unit`, the number itself
being `mid`. The ends belong to it or not together. -/
structure Span where
  low : Nat
  mid : Nat
  high : Nat
  unit : Nat
  closed : Bool
  deriving Repr

namespace Span

/-- The span of `mantissa · 2 ^ exponent`. Below a power of two the neighbours are closer by half,
which `tight` says. -/
def ofBinary (mantissa : Nat) (exponent : Int) (tight : Bool) : Span :=
  -- in quarters of the last place both ends are whole
  let quarter := exponent - 2
  let scale := Nat.pow 2 quarter.toNat
  { low := (4 * mantissa - if tight then 1 else 2) * scale
    mid := 4 * mantissa * scale
    high := (4 * mantissa + 2) * scale
    unit := Nat.pow 2 (-quarter).toNat
    closed := mantissa % 2 == 0 }

/-- The span in units of `10 ^ power`. -/
def scaled (s : Span) (power : Int) : Span :=
  let up := Nat.pow 10 (-power).toNat
  { s with
    low := s.low * up, mid := s.mid * up, high := s.high * up,
    unit := s.unit * Nat.pow 10 power.toNat }

/-- The whole number `point` is in the span. -/
def Contains (s : Span) (point : Nat) : Prop :=
  if s.closed then s.low ≤ point * s.unit ∧ point * s.unit ≤ s.high
  else s.low < point * s.unit ∧ point * s.unit < s.high

instance (s : Span) (point : Nat) : Decidable (s.Contains point) := by
  unfold Contains; infer_instance

/-- The whole number of the span that is nearest to its middle. -/
def hit? (tie : Tie) (s : Span) : Option Nat :=
  let below := s.mid / s.unit
  let above := below + 1
  if s.Contains below then
    if s.Contains above then
      match compare (2 * s.mid) ((below + above) * s.unit), tie with
      | .lt, _ => some below
      | .gt, _ => some above
      | .eq, .up => some above
      | .eq, .toEven => some (if below % 2 = 0 then below else above)
    else some below
  else if s.Contains above then some above
  else none

theorem hit?_mem {tie : Tie} {s : Span} {point : Nat} (h : s.hit? tie = some point) :
    s.Contains point := by
  unfold hit? at h
  grind

end Span

/-- A decimal `digits · 10 ^ power`. -/
structure Scientific where
  digits : Nat
  power : Int
  deriving DecidableEq, Repr

/-- The shortest decimal of a span, tried from the coarsest grid on. Between 10 ^ 309 and 10 ^ -343
lie all grids that a number of 64 bits needs. -/
def Span.shortest (tie : Tie) (s : Span) : Scientific :=
  let grids := (List.range 653).map fun i => (309 : Int) - (i : Nat)
  (grids.findSome? fun power => ((s.scaled power).hit? tie).map fun d => ⟨d, power⟩).getD ⟨0, 0⟩

/-- What a floating point number is. -/
inductive Real64 where
  | nan
  | infinite (negative : Bool)
  | zero (negative : Bool)
  | finite (negative : Bool) (span : Span)

/-- Takes a number apart into sign, exponent and fraction. -/
def Real64.ofFloat (x : Float) : Real64 :=
  let negative := x.toBits >>> 63 == 1
  let biased : Nat := ((x.toBits >>> 52) &&& 0x7FF).toNat
  let fraction : Nat := (x.toBits &&& 0xFFFFFFFFFFFFF).toNat
  if biased = 2047 then
    if fraction = 0 then .infinite negative else .nan
  else if biased = 0 then
    if fraction = 0 then .zero negative
    else .finite negative (.ofBinary fraction (-1074) false)
  else
    -- the leading bit is not stored; just above the least exponent the grid below is no finer
    .finite negative
      (.ofBinary (0x10000000000000 + fraction) ((biased : Int) - 1075)
        (fraction == 0 && biased != 1))

/-! ### Written forms -/

/-- How a floating point number is written. -/
structure Layout where
  /-- The least exponent written out in positional notation. -/
  least : Int
  /-- The greatest exponent written out in positional notation. -/
  greatest : Int
  exponentMark : String
  /-- The decimal taken of two that are equally near. -/
  tie : Tie

/-- The digits with a point after the digit of weight one; a whole number ends in `.0`. -/
def positional (digits : List Char) (exponent : Int) : List Char :=
  if exponent < 0 then
    "0.".toList ++ List.replicate (-exponent - 1).toNat '0' ++ digits
  else
    -- digits that end before the point are followed by zeros up to it
    let whole := exponent.toNat + 1
    let after := digits.drop whole
    digits.take whole ++ List.replicate (whole - digits.length) '0' ++ ['.']
      ++ if after.isEmpty then ['0'] else after

/-- One digit, a point where more digits follow, and the exponent. -/
def exponential (mark : String) (digits : List Char) (exponent : Int) : List Char :=
  let after := digits.drop 1
  digits.take 1 ++ (if after.isEmpty then [] else '.' :: after)
    ++ (if exponent < 0 then "e".toList else mark.toList) ++ (ofInt exponent).toList

/-- The text of a finite decimal. -/
def Layout.write (layout : Layout) (d : Scientific) : List Char :=
  let digits := Decimal.write d.digits
  let exponent := d.power + digits.length - 1
  if layout.least ≤ exponent ∧ exponent ≤ layout.greatest then positional digits exponent
  else exponential layout.exponentMark digits exponent

/-- The text of a number. -/
def Layout.text (layout : Layout) (x : Float) : String :=
  let sign (negative : Bool) : String := if negative then "-" else ""
  match Real64.ofFloat x with
  | .nan => "NaN"
  | .infinite negative => sign negative ++ "inf"
  | .zero negative => sign negative ++ "0.0"
  | .finite negative span =>
    sign negative ++ String.ofList (layout.write (span.shortest layout.tie))

end RecordRules.Decimal
