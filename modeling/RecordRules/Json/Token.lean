/-
Tokens of JSON documents.

Blanks between tokens are dropped. A token that breaks off ends the document: nothing after it can
be told. It carries the fault that a reader of it finds and the one found by whoever skips it, for
skipping is content with less.

* **`tokens_cons`**, **`tokens_blank`** — the tokens of a text, one at a time.
-/
import RecordRules.Json.QuotedText

namespace RecordRules.Json

/-- The two sorts of brackets. -/
inductive Bracket where
  | square
  | curly
  deriving DecidableEq, Repr

/-- A token of a document. -/
inductive Token where
  | opening (b : Bracket)
  | closing (b : Bracket)
  | comma
  | colon
  | null
  | bool (b : Bool)
  | number (n : Numeral)
  | text (s : String)
  /-- A string without a text or a number out of range: it can be skipped and not read. -/
  | unfit (isText : Bool)
  /-- A string, or a number or word, that breaks off; the document ends with it. -/
  | broken (isText : Bool) (read skipped : Fault)

/-- The blanks between tokens: space, tab, line feed and carriage return. -/
def isSpace (c : Char) : Bool := c = ' ' || c = '\t' || c = '\n' || c = '\r'

/-- What is left of a text after a word at its head. -/
def afterWord : List Char → List Char → Except Fault (List Char)
  | [], s => .ok s
  | _ :: _, [] => .error .truncated
  | w :: word, c :: s => if c = w then afterWord word s else .error .malformed

/-- The token that a word is, where a text goes on with it. -/
def wordToken (token : Token) (word s : List Char) : Token × List Char :=
  match afterWord word s with
  | .ok rest => (token, rest)
  | .error fault => (.broken false fault fault, [])

/-- The number at the head of a text. To whoever skips it, a broken number is malformed also where
the text ends in it. -/
def numberToken (s : List Char) : Token × List Char :=
  match NumberText.scan s with
  | .ok (t, rest) =>
    match t.value? with
    | some n => (.number n, rest)
    | none => (.unfit false, rest)
  | .error fault => (.broken false fault .malformed, [])

/-- The string behind an opening quote. -/
def textToken (s : List Char) : Token × List Char :=
  match readText s with
  | .closed (some content) rest => (.text (String.ofList content), rest)
  | .closed none rest => (.unfit true, rest)
  | .broken read skipped => (.broken true read skipped, [])

/-- The token that begins with a character, and the text after it. -/
def token (c : Char) (rest : List Char) : Token × List Char :=
  match c with
  | '[' => (.opening .square, rest)
  | ']' => (.closing .square, rest)
  | '\x7b' => (.opening .curly, rest)
  | '\x7d' => (.closing .curly, rest)
  | ',' => (.comma, rest)
  | ':' => (.colon, rest)
  | '"' => textToken rest
  | 'n' => wordToken .null "ull".toList rest
  | 't' => wordToken (.bool true) "rue".toList rest
  | 'f' => wordToken (.bool false) "alse".toList rest
  | c =>
    if c = '-' ∨ c.isDigit then numberToken (c :: rest)
    else (.broken false .malformed .malformed, [])

theorem length_le_of_afterWord {word s rest : List Char} (h : afterWord word s = .ok rest) :
    rest.length ≤ s.length := by
  induction word generalizing s with
  | nil => cases h; exact Nat.le_refl _
  | cons w word ih =>
    cases s with
    | nil => cases h
    | cons c s =>
      rw [afterWord] at h
      split at h
      · exact Nat.le_succ_of_le (ih h)
      · cases h

theorem length_wordToken_le (t : Token) (word s : List Char) :
    (wordToken t word s).2.length ≤ s.length := by
  unfold wordToken
  split
  · next h => exact length_le_of_afterWord h
  · simp

theorem length_textToken_le (s : List Char) : (textToken s).2.length ≤ s.length := by
  unfold textToken
  split
  · next h => exact Nat.le_of_lt (length_lt_of_readText h)
  · next h => exact Nat.le_of_lt (length_lt_of_readText h)
  · simp

theorem length_numberToken_le (c : Char) (s : List Char) :
    (numberToken (c :: s)).2.length ≤ s.length := by
  unfold numberToken
  split
  · next t rest h =>
    have := NumberText.length_lt_of_scan h
    have hle : rest.length ≤ s.length := by simpa [Nat.lt_succ_iff] using this
    split <;> exact hle
  · simp

theorem length_token_le (c : Char) (rest : List Char) :
    (token c rest).2.length ≤ rest.length := by
  unfold token
  split
  all_goals first
    | exact Nat.le_refl _
    | exact length_textToken_le _
    | exact length_wordToken_le _ _ _
    | (split
       · exact length_numberToken_le _ _
       · simp)

/-- The tokens of a text, up to the first that breaks off. -/
def tokens : List Char → List Token
  | [] => []
  | c :: rest =>
    if isSpace c then tokens rest
    else (token c rest).1 :: tokens (token c rest).2
termination_by s => s.length
decreasing_by
  · simp
  · exact Nat.lt_succ_of_le (length_token_le _ _)

/-! ### One token at a time -/

@[simp] theorem tokens_nil : tokens [] = [] := by rw [tokens]

theorem tokens_blank {c : Char} (h : isSpace c = true) (rest : List Char) :
    tokens (c :: rest) = tokens rest := by
  rw [tokens, if_pos h]

theorem tokens_cons {c : Char} (h : isSpace c = false) (rest : List Char) :
    tokens (c :: rest) = (token c rest).1 :: tokens (token c rest).2 := by
  rw [tokens, if_neg (by simp [h])]

end RecordRules.Json
