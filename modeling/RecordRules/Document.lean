/-
Reading settings from JSON documents.

A document is read once, from left to right, and the first thing amiss is its problem: either the
text is no JSON at that point, or it is JSON of the wrong shape. A group of settings is written as
an object, whose unknown keys are skipped, or as a list in the order of declaration, which may stop
early. Settings that are not given keep the value they had.

* **`Reader`** — what a reader takes is at least one token, so that repeated reading ends;
* **`readStruct_curly`**, **`readStruct_square`** — the two ways to write a group.
-/
import RecordRules.Decimal.Shortest
import RecordRules.Json.Skip
import RecordRules.Text.Quoted

namespace RecordRules.Document

open Json

/-! ### Problems -/

/-- What stands where something else is expected. -/
inductive Found where
  | null
  | bool (b : Bool)
  | number (n : Numeral)
  | text (s : String)
  | list
  | object

/-- A wrong shape. -/
inductive Mismatch where
  | wrongType (found : Found) (expected : String)
  | belowZero (n : Int64) (expected : String)
  | unknownVariant (given : String) (known : List String)
  | duplicateKey (key : String)

/-- What is wrong with a document. -/
inductive Problem where
  | fault (f : Fault)
  | mismatch (m : Mismatch)

/-- Messages write numbers from 0.00001 to below 10 ^ 16 in positional notation, give every other
exponent its sign, and take the even one of two equally near decimals. -/
def floatLayout : Decimal.Layout := ⟨-5, 15, "e+", .toEven⟩

/-- A word between backquotes. -/
def marked (s : String) : String := "`" ++ s ++ "`"

def Found.describe : Found → String
  | null => "null"
  | bool b => "boolean " ++ marked (if b then "true" else "false")
  | number (.natural n) => "integer " ++ marked (Decimal.ofNat n.toNat)
  | number (.negative n) => "integer " ++ marked (Decimal.ofInt n.toInt)
  | number (.real x) => "floating point " ++ marked (floatLayout.text x)
  | text s => "string " ++ Text.quote s
  | list => "sequence"
  | object => "map"

def Mismatch.message : Mismatch → String
  | wrongType found expected => "invalid type: " ++ found.describe ++ ", expected " ++ expected
  | belowZero n expected =>
    "invalid value: " ++ (Found.number (.negative n)).describe ++ ", expected " ++ expected
  | unknownVariant given known =>
    "unknown variant " ++ marked given ++ ", expected " ++ " or ".intercalate (known.map marked)
  | duplicateKey key => "duplicate field " ++ marked key

/-- What stands at the head of some tokens where something else is expected. -/
def found? : List Token → Except Fault Found
  | [] => .error .truncated
  | .null :: _ => .ok .null
  | .bool b :: _ => .ok (.bool b)
  | .number n :: _ => .ok (.number n)
  | .text s :: _ => .ok (.text s)
  | .opening .square :: _ => .ok .list
  | .opening .curly :: _ => .ok .object
  | .broken _ read _ :: _ => .error read
  | _ => .error .malformed

/-- The problem of tokens that do not begin with what is expected. -/
def unexpected (expected : String) (tokens : List Token) : Problem :=
  match found? tokens with
  | .ok found => .mismatch (.wrongType found expected)
  | .error fault => .fault fault

/-! ### Readers -/

/-- A value and the tokens after it, or the problem in the way. -/
abbrev Reading (α : Type) := Except Problem (α × List Token)

/-- A way to read a value at the head of some tokens. It takes at least one of them. -/
structure Reader (α : Type) where
  read : List Token → Reading α
  shorter : ∀ {tokens rest : List Token} {x : α}, read tokens = .ok (x, rest) →
    rest.length < tokens.length

/-- Reads a value and makes another of it. -/
def Reader.map (f : α → β) (r : Reader α) : Reader β where
  read tokens :=
    match r.read tokens with
    | .ok (x, rest) => .ok (f x, rest)
    | .error problem => .error problem
  shorter h := by
    split at h
    · next heq => cases h; exact r.shorter heq
    · cases h

def readSize : List Token → Reading UInt64
  | .number (.natural n) :: rest => .ok (n, rest)
  | .number (.negative n) :: _ => .error (.mismatch (.belowZero n "usize"))
  | tokens => .error (unexpected "usize" tokens)

/-- Reads a size. -/
def Reader.size : Reader UInt64 where
  read := readSize
  shorter h := by
    unfold readSize at h
    split at h
    · cases h; exact Nat.lt_succ_self _
    · cases h
    · cases h

def readFlag : List Token → Reading Bool
  | .bool b :: rest => .ok (b, rest)
  | tokens => .error (unexpected "a boolean" tokens)

/-- Reads a truth value. -/
def Reader.flag : Reader Bool where
  read := readFlag
  shorter h := by
    unfold readFlag at h
    split at h
    · cases h; exact Nat.lt_succ_self _
    · cases h

def readUnit : List Token → Reading Unit
  | .null :: rest => .ok ((), rest)
  | tokens => .error (unexpected "unit" tokens)

theorem length_lt_of_readUnit {tokens rest : List Token} {u : Unit}
    (h : readUnit tokens = .ok (u, rest)) : rest.length < tokens.length := by
  unfold readUnit at h
  split at h
  · cases h; exact Nat.lt_succ_self _
  · cases h

def readOptional (r : Reader α) : List Token → Reading (Option α)
  | .null :: rest => .ok (none, rest)
  | tokens => (r.map some).read tokens

/-- Reads a null, or whatever another reader reads. -/
def Reader.optional (r : Reader α) : Reader (Option α) where
  read := readOptional r
  shorter h := by
    unfold readOptional at h
    split at h
    · cases h; exact Nat.lt_succ_self _
    · exact (r.map some).shorter h

/-! ### Words and punctuation -/

/-- The fault of tokens that do not begin with a text, where nothing but a text may stand. -/
def textFault : List Token → Fault
  | [] => .truncated
  | .broken true read _ :: _ => read
  | _ => .malformed

/-- The tokens after a colon. -/
def colon : List Token → Except Fault (List Token)
  | .colon :: rest => .ok rest
  | [] => .error .truncated
  | _ => .error .malformed

theorem length_lt_of_colon {tokens rest : List Token} (h : colon tokens = .ok rest) :
    rest.length < tokens.length := by
  unfold colon at h
  split at h
  · cases h; exact Nat.lt_succ_self _
  · cases h
  · cases h

/-- The tokens after the closing bracket of this sort. -/
def close (b : Bracket) : List Token → Except Fault (List Token)
  | .closing b' :: rest => if b' = b then .ok rest else .error .malformed
  | [] => .error .truncated
  | _ => .error .malformed

theorem length_lt_of_close {b : Bracket} {tokens rest : List Token}
    (h : close b tokens = .ok rest) : rest.length < tokens.length := by
  unfold close at h
  split at h
  · split at h
    · cases h; exact Nat.lt_succ_self _
    · cases h
  · cases h
  · cases h

/-! ### Choices -/

/-- Some choices, each with a word. -/
structure Choices (α : Type) where
  known : List String
  ofText? : String → Option α

/-- The choice with this word. -/
def Choices.pick (choices : Choices α) (word : String) : Except Problem α :=
  match choices.ofText? word with
  | some choice => .ok choice
  | none => .error (.mismatch (.unknownVariant word choices.known))

/-- Reads the null of a choice that is written as an object, from behind the word. -/
def readKeyedNull (tokens : List Token) : Reading Unit :=
  match colon tokens with
  | .error fault => .error (.fault fault)
  | .ok rest =>
    match readUnit rest with
    | .error problem => .error problem
    | .ok ((), rest) =>
      match close .curly rest with
      | .error fault => .error (.fault fault)
      | .ok rest => .ok ((), rest)

theorem length_lt_of_readKeyedNull {tokens rest : List Token} {u : Unit}
    (h : readKeyedNull tokens = .ok (u, rest)) : rest.length < tokens.length := by
  unfold readKeyedNull at h
  split at h
  · cases h
  · next hcolon =>
    split at h
    · cases h
    · next hunit =>
      split at h
      · cases h
      · next hclose =>
        cases h
        have := length_lt_of_colon hcolon
        have := length_lt_of_readUnit hunit
        have := length_lt_of_close hclose
        omega

/-- Reads a choice that is written as an object, from behind its opening bracket: the word is the
only key and has a null. Like every key it is a text, and a word that is no choice is refused before
anything after it is read. -/
def readKeyedChoice (choices : Choices α) : List Token → Reading α
  | .text word :: rest =>
    match choices.pick word with
    | .error problem => .error problem
    | .ok choice => (readKeyedNull rest).map fun (_, rest) => (choice, rest)
  | tokens => .error (.fault (textFault tokens))

theorem length_lt_of_readKeyedChoice {choices : Choices α} {tokens rest : List Token} {x : α}
    (h : readKeyedChoice choices tokens = .ok (x, rest)) : rest.length < tokens.length := by
  unfold readKeyedChoice at h
  split at h
  · next more =>
    split at h
    · cases h
    · cases hnull : readKeyedNull more with
      | error _ => rw [hnull] at h; cases h
      | ok pair =>
        rw [hnull] at h
        cases h
        exact Nat.lt_succ_of_lt (length_lt_of_readKeyedNull hnull)
  · cases h

def readChoice (choices : Choices α) : List Token → Reading α
  | .text word :: rest => (choices.pick word).map fun choice => (choice, rest)
  | .opening .curly :: rest => readKeyedChoice choices rest
  | tokens => .error (.fault (textFault tokens))

/-- Reads a choice: its word, or an object with the word. -/
def Reader.choice (choices : Choices α) : Reader α where
  read := readChoice choices
  shorter h := by
    unfold readChoice at h
    split at h
    · next word rest =>
      cases hpick : choices.pick word with
      | error _ => rw [hpick] at h; cases h
      | ok choice => rw [hpick] at h; cases h; exact Nat.lt_succ_self _
    · exact Nat.lt_succ_of_lt (length_lt_of_readKeyedChoice h)
    · cases h

/-! ### Groups of settings -/

/-- A setting of a group: its key, and how its value changes the group. -/
structure Entry (α : Type) where
  key : String
  reader : α → Reader α

/-- A group of settings. -/
structure Shape (α : Type) where
  /-- What the group is called where something else stands. -/
  title : String
  start : α
  entries : List (Entry α)

/-- The setting with this key. -/
def Shape.entry? (shape : Shape α) (key : String) : Option (Entry α) :=
  shape.entries.find? fun entry => entry.key = key

/-! ### Objects -/

/-- A key at the head of some tokens. -/
def keyAt : List Token → Except Fault (Option String × List Token)
  | .text key :: rest => .ok (some key, rest)
  | tokens => .error (textFault tokens)

/-- The next key of an object, or its end. A comma stands before every key but the first. -/
def nextKey (first : Bool) : List Token → Except Fault (Option String × List Token)
  | [] => .error .truncated
  | .closing .curly :: rest => .ok (none, rest)
  | .comma :: rest => if first then .error .malformed else keyAt rest
  | tokens => if first then keyAt tokens else .error .malformed

theorem length_lt_of_keyAt {tokens rest : List Token} {key : Option String}
    (h : keyAt tokens = .ok (key, rest)) : rest.length < tokens.length := by
  unfold keyAt at h
  split at h
  · cases h; exact Nat.lt_succ_self _
  · cases h

theorem length_lt_of_nextKey {first : Bool} {tokens rest : List Token} {key : Option String}
    (h : nextKey first tokens = .ok (key, rest)) : rest.length < tokens.length := by
  unfold nextKey at h
  split at h
  · cases h
  · cases h; exact Nat.lt_succ_self _
  · split at h
    · cases h
    · exact Nat.lt_succ_of_lt (length_lt_of_keyAt h)
  · split at h
    · exact length_lt_of_keyAt h
    · cases h

/-- Reads the value of a key into the group, or skips it where no setting has the key. -/
def readValue (entry : Option (Entry α)) (group : α) (tokens : List Token) : Reading α :=
  match entry with
  | some entry => (entry.reader group).read tokens
  | none =>
    match skip tokens with
    | .error fault => .error (.fault fault)
    | .ok rest => .ok (group, rest)

/-- Reads a member of an object, from behind its key. A known key that was seen before is refused
before anything after it is read. -/
def readMember (shape : Shape α) (seen : List String) (group : α) (key : String)
    (tokens : List Token) : Reading α :=
  -- an unknown key may repeat
  if (shape.entry? key).isSome ∧ key ∈ seen then .error (.mismatch (.duplicateKey key))
  else match colon tokens with
    | .error fault => .error (.fault fault)
    | .ok rest => readValue (shape.entry? key) group rest

theorem length_lt_of_readValue {entry : Option (Entry α)} {group x : α}
    {tokens rest : List Token} (h : readValue entry group tokens = .ok (x, rest)) :
    rest.length < tokens.length := by
  unfold readValue at h
  split at h
  · next entry => exact (entry.reader group).shorter h
  · split at h
    · cases h
    · next hskip => cases h; exact length_lt_of_skip hskip

theorem length_lt_of_readMember {shape : Shape α} {seen : List String} {group x : α}
    {key : String} {tokens rest : List Token}
    (h : readMember shape seen group key tokens = .ok (x, rest)) :
    rest.length < tokens.length := by
  unfold readMember at h
  split at h
  · cases h
  · split at h
    · cases h
    · next hcolon => exact Nat.lt_trans (length_lt_of_readValue h) (length_lt_of_colon hcolon)

/-- Reads the members of an object, up to its end. -/
def readMembers (shape : Shape α) (seen : List String) (group : α) (first : Bool)
    (tokens : List Token) : Reading α :=
  match _hkey : nextKey first tokens with
  | .error fault => .error (.fault fault)
  | .ok (none, rest) => .ok (group, rest)
  | .ok (some key, rest) =>
    match _hmember : readMember shape seen group key rest with
    | .error problem => .error problem
    | .ok (group, rest) => readMembers shape (key :: seen) group false rest
termination_by tokens.length
decreasing_by exact Nat.lt_trans (length_lt_of_readMember ‹_›) (length_lt_of_nextKey ‹_›)

theorem length_lt_of_readMembers {shape : Shape α} {seen : List String} {group x : α}
    {first : Bool} {tokens rest : List Token}
    (h : readMembers shape seen group first tokens = .ok (x, rest)) :
    rest.length < tokens.length := by
  fun_induction readMembers shape seen group first tokens with
  | case1 => cases h
  | case2 seen group first tokens rest' hkey => cases h; exact length_lt_of_nextKey hkey
  | case3 => cases h
  | case4 seen group first tokens key rest' hkey group' rest'' hmember ih =>
    exact Nat.lt_trans (ih h)
      (Nat.lt_trans (length_lt_of_readMember hmember) (length_lt_of_nextKey hkey))

/-! ### Lists -/

/-- The tokens where the next item of a list is due, or those after the end of the list. A comma
stands before every item but the first, and not before the end. -/
def nextItem (first : Bool) : List Token → Except Fault (Bool × List Token)
  | [] => .error .truncated
  | .closing .square :: rest => .ok (false, rest)
  | .comma :: rest =>
    if first then .error .malformed
    else match rest with
      | [] => .error .truncated
      | .closing .square :: _ => .error .malformed
      | _ => .ok (true, rest)
  | tokens => if first then .ok (true, tokens) else .error .malformed

/-- Reads the items of a list into the settings in their order, up to the end of the list. The list
may stop early, and has no more items than there are settings. -/
def readItems (entries : List (Entry α)) (group : α) (first : Bool) (tokens : List Token) :
    Reading α :=
  match entries with
  | [] =>
    match close .square tokens with
    | .error fault => .error (.fault fault)
    | .ok rest => .ok (group, rest)
  | entry :: more =>
    match nextItem first tokens with
    | .error fault => .error (.fault fault)
    | .ok (false, rest) => .ok (group, rest)
    | .ok (true, rest) =>
      match (entry.reader group).read rest with
      | .error problem => .error problem
      | .ok (group, rest) => readItems more group false rest

theorem length_of_nextItem {first due : Bool} {tokens rest : List Token}
    (h : nextItem first tokens = .ok (due, rest)) :
    rest.length ≤ tokens.length ∧ (due = false → rest.length < tokens.length) := by
  unfold nextItem at h
  split at h
  · cases h
  · cases h; simp
  · split at h
    · cases h
    · split at h
      · cases h
      · cases h
      · cases h; simp
  · split at h
    · cases h; simp
    · cases h

theorem length_lt_of_readItems {entries : List (Entry α)} {group x : α} {first : Bool}
    {tokens rest : List Token} (h : readItems entries group first tokens = .ok (x, rest)) :
    rest.length < tokens.length := by
  induction entries generalizing group first tokens with
  | nil =>
    unfold readItems at h
    split at h
    · cases h
    · next hclose => cases h; exact length_lt_of_close hclose
  | cons entry more ih =>
    unfold readItems at h
    split at h
    · cases h
    · next hitem => cases h; exact (length_of_nextItem hitem).2 rfl
    · next hitem =>
      split at h
      · cases h
      · next hread =>
        exact Nat.lt_of_lt_of_le (Nat.lt_trans (ih h) ((entry.reader group).shorter hread))
          (length_of_nextItem hitem).1

/-! ### Whole groups and documents -/

def readStruct (shape : Shape α) : List Token → Reading α
  | .opening .curly :: rest => readMembers shape [] shape.start true rest
  | .opening .square :: rest => readItems shape.entries shape.start true rest
  | tokens => .error (unexpected shape.title tokens)

/-- Reads a group of settings. -/
def Reader.struct (shape : Shape α) : Reader α where
  read := readStruct shape
  shorter h := by
    unfold readStruct at h
    split at h
    · exact Nat.lt_succ_of_lt (length_lt_of_readMembers h)
    · exact Nat.lt_succ_of_lt (length_lt_of_readItems h)
    · cases h

/-- Reads a whole document: nothing but blanks stands around the group. -/
def readText (shape : Shape α) (text : String) : Except Problem α :=
  match readStruct shape (tokens text.toList) with
  | .error problem => .error problem
  | .ok (group, []) => .ok group
  | .ok (_, _ :: _) => .error (.fault .malformed)

/-! ### The two ways to write a group -/

theorem readStruct_curly (shape : Shape α) (rest : List Token) :
    readStruct shape (.opening .curly :: rest) = readMembers shape [] shape.start true rest := rfl

theorem readStruct_square (shape : Shape α) (rest : List Token) :
    readStruct shape (.opening .square :: rest)
      = readItems shape.entries shape.start true rest := rfl

end RecordRules.Document
