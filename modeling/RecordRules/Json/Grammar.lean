/-
The grammar of JSON documents, character by character.

Between tokens stand any blanks. A value is a word, a number, a string, a list or an object, nested
in any way; a list is told with the texts of its values, and an object with its members as they are
written. What stands between the quotes of a string is any sequence of characters and escapes. It
spells a text if every surrogate in it is one of a pair, so some keys are no texts.

The grammar says nothing about numbers that are too big or keys that repeat: as JSON both are fine.
-/
import RecordRules.Json.Token

namespace RecordRules.Json

/-! ### Blanks and numbers -/

/-- Any number of blanks. -/
def IsBlanks (s : List Char) : Prop := ∀ c ∈ s, isSpace c = true

/-- A text with blanks around it. -/
def Padded (v s : List Char) : Prop :=
  ∃ before after, IsBlanks before ∧ IsBlanks after ∧ s = before ++ v ++ after

/-- One or more digits. -/
def IsDigits (s : List Char) : Prop := s ≠ [] ∧ ∀ c ∈ s, c.isDigit = true

/-- One or more digits of which a zero is not the first, unless it is the only one. -/
def IsWhole (s : List Char) : Prop := IsDigits s ∧ (s.head? = some '0' → s = ['0'])

/-- A fraction, or none. -/
inductive IsFraction : List Char → Prop where
  | none : IsFraction []
  | some {ds : List Char} (digits : IsDigits ds) : IsFraction ('.' :: ds)

/-- An exponent, or none. -/
inductive IsExponent : List Char → Prop where
  | none : IsExponent []
  | some {e : Char} {sign ds : List Char} (letter : e = 'e' ∨ e = 'E')
      (sign_mem : sign ∈ [[], ['+'], ['-']]) (digits : IsDigits ds) : IsExponent (e :: sign ++ ds)

/-- A number. -/
inductive IsNumber : List Char → Prop where
  | mk {sign whole fraction exponent : List Char} (sign_mem : sign ∈ [[], ['-']])
      (isWhole : IsWhole whole) (isFraction : IsFraction fraction)
      (isExponent : IsExponent exponent) : IsNumber (sign ++ whole ++ fraction ++ exponent)

/-- A size: a whole number that 64 bits can hold. -/
def IsSize (s : List Char) (n : UInt64) : Prop := IsWhole s ∧ Decimal.value s = n.toNat

/-! ### Strings -/

/-- A character that can stand in a string as it is. -/
def IsPlain (c : Char) : Prop := c ≠ '"' ∧ c ≠ '\\' ∧ 0x20 ≤ c.toNat

instance : DecidablePred IsPlain := fun _ => inferInstanceAs (Decidable (_ ∧ _ ∧ _))

/-- What can stand between the quotes of a string. -/
inductive IsQuoted : List Char → Prop where
  | nil : IsQuoted []
  | plain {c : Char} {w : List Char} (isPlain : IsPlain c) (more : IsQuoted w) : IsQuoted (c :: w)
  | letter {e c : Char} {w : List Char} (escape : unescape? e = some c) (more : IsQuoted w) :
      IsQuoted ('\\' :: e :: w)
  | code {a b c d : Char} {n : Nat} {w : List Char} (hex : hex4? a b c d = some n)
      (more : IsQuoted w) : IsQuoted ('\\' :: 'u' :: a :: b :: c :: d :: w)

/-- A text, and a way to write it between the quotes of a string. -/
inductive Spells : List Char → List Char → Prop where
  | nil : Spells [] []
  | plain {c : Char} {t w : List Char} (isPlain : IsPlain c) (more : Spells t w) :
      Spells (c :: t) (c :: w)
  | letter {e c : Char} {t w : List Char} (escape : unescape? e = some c) (more : Spells t w) :
      Spells (c :: t) ('\\' :: e :: w)
  | code {a b c d : Char} {n : Nat} {t w : List Char} (hex : hex4? a b c d = some n)
      (not_high : isHighSurrogate n = false) (not_low : isLowSurrogate n = false)
      (more : Spells t w) : Spells (Char.ofNat n :: t) ('\\' :: 'u' :: a :: b :: c :: d :: w)
  | pair {a b c d e f g h : Char} {high low : Nat} {t w : List Char}
      (hex : hex4? a b c d = some high) (isHigh : isHighSurrogate high = true)
      (hex' : hex4? e f g h = some low) (isLow : isLowSurrogate low = true) (more : Spells t w) :
      Spells (ofSurrogates high low :: t)
        ('\\' :: 'u' :: a :: b :: c :: d :: '\\' :: 'u' :: e :: f :: g :: h :: w)

/-- A string, with its quotes. -/
def quoted (w : List Char) : List Char := '"' :: w ++ ['"']

/-! ### Values -/

/-- A member of an object, as it is written: what stands between the quotes of its key, and its
value without the blanks around it. -/
structure Member where
  key : List Char
  value : List Char
  deriving DecidableEq, Repr

/-- Whether the key of a member is this one, however it is written. -/
def Member.HasKey (m : Member) (key : String) : Prop := Spells key.toList m.key

/-- Whether the key of a member is any text. -/
def Member.HasText (m : Member) : Prop := ∃ key, m.HasKey key

mutual

/-- A value, without blanks around it. -/
inductive IsValue : List Char → Prop where
  | null : IsValue "null".toList
  | true : IsValue "true".toList
  | false : IsValue "false".toList
  | number {s : List Char} (h : IsNumber s) : IsValue s
  | text {w : List Char} (h : IsQuoted w) : IsValue (quoted w)
  | list {values : List (List Char)} {s : List Char} (h : IsList values s) : IsValue s
  | object {members : List Member} {s : List Char} (h : IsObject members s) : IsValue s

/-- A list with these values. -/
inductive IsList : List (List Char) → List Char → Prop where
  | empty {s : List Char} (h : IsBlanks s) : IsList [] ('[' :: s ++ [']'])
  | items {values : List (List Char)} {s : List Char} (h : IsItems values s) :
      IsList values ('[' :: s ++ [']'])

/-- One or more values with commas between them. -/
inductive IsItems : List (List Char) → List Char → Prop where
  | last {v s : List Char} (value : IsValue v) (pad : Padded v s) : IsItems [v] s
  | more {v s : List Char} {values : List (List Char)} {t : List Char} (value : IsValue v)
      (pad : Padded v s) (rest : IsItems values t) : IsItems (v :: values) (s ++ ',' :: t)

/-- An object with these members. -/
inductive IsObject : List Member → List Char → Prop where
  | empty {s : List Char} (h : IsBlanks s) : IsObject [] ('\x7b' :: s ++ ['\x7d'])
  | members {members : List Member} {s : List Char} (h : IsMembers members s) :
      IsObject members ('\x7b' :: s ++ ['\x7d'])

/-- One or more members with commas between them. -/
inductive IsMembers : List Member → List Char → Prop where
  | last {m : Member} {s : List Char} (member : IsMember m s) : IsMembers [m] s
  | more {m : Member} {s : List Char} {members : List Member} {t : List Char}
      (member : IsMember m s) (rest : IsMembers members t) : IsMembers (m :: members) (s ++ ',' :: t)

/-- A key and a value with a colon between them. -/
inductive IsMember : Member → List Char → Prop where
  | mk {m : Member} {s t : List Char} (key : IsQuoted m.key) (value : IsValue m.value)
      (padKey : Padded (quoted m.key) s) (padValue : Padded m.value t) : IsMember m (s ++ ':' :: t)

end

/-- A document: a value of some sort, with any blanks around it. -/
def IsDocument (IsSuch : List Char → Prop) (text : String) : Prop :=
  ∃ s, IsSuch s ∧ Padded s text.toList

end RecordRules.Json
