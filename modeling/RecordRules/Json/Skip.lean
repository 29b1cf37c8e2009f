/-
Skipping a value of a JSON document.

A skipper goes from token to token. It keeps what it waits for and the brackets that are open, so
that nesting has no bound. Lists and objects are checked, and all that is in them; strings need no
text and numbers no range.

* **`skipFrom_after_nil`** — a value is skipped when nothing is open behind it;
* **`length_lt_of_skip`** — a skipped value is at least one token.
-/
import RecordRules.Json.Token

namespace RecordRules.Json

/-- What a skipper waits for. -/
inductive Place where
  | value
  | after
  /-- The first item of a list, or the end of the list. -/
  | firstItem
  /-- The first key of an object, or the end of the object. -/
  | firstKey
  | key
  | colon
  deriving DecidableEq, Repr

/-- The step over a token where a value is due. -/
def Place.overValue (stack : List Bracket) : Token → Except Fault (Place × List Bracket)
  | .null | .bool _ | .number _ | .text _ | .unfit _ => .ok (after, stack)
  | .opening .square => .ok (firstItem, .square :: stack)
  | .opening .curly => .ok (firstKey, .curly :: stack)
  | .broken _ _ skipped => .error skipped
  | _ => .error .malformed

/-- The step over a token where a key is due. -/
def Place.overKey (stack : List Bracket) : Token → Except Fault (Place × List Bracket)
  | .text _ | .unfit true => .ok (colon, stack)
  | .broken true _ skipped => .error skipped
  | _ => .error .malformed

/-- The step over a token: what is waited for and what is open after it. -/
def Place.over : Place → List Bracket → Token → Except Fault (Place × List Bracket)
  | value, stack, token => overValue stack token
  | firstItem, .square :: stack, .closing .square => .ok (after, stack)
  | firstItem, stack, token => overValue stack token
  | firstKey, .curly :: stack, .closing .curly => .ok (after, stack)
  | firstKey, stack, token => overKey stack token
  | key, stack, token => overKey stack token
  | colon, stack, .colon => .ok (value, stack)
  | after, .square :: stack, .comma => .ok (value, .square :: stack)
  | after, .curly :: stack, .comma => .ok (key, .curly :: stack)
  | after, .square :: stack, .closing .square => .ok (after, stack)
  | after, .curly :: stack, .closing .curly => .ok (after, stack)
  | _, _, _ => .error .malformed

/-- Skips on until nothing is open behind a value, and gives the tokens after that. -/
def skipFrom : Place → List Bracket → List Token → Except Fault (List Token)
  | .after, [], rest => .ok rest
  | _, _, [] => .error .truncated
  | place, stack, token :: rest =>
    match place.over stack token with
    | .ok (place, stack) => skipFrom place stack rest
    | .error fault => .error fault

/-- The tokens after the value at the head of some. -/
def skip (tokens : List Token) : Except Fault (List Token) := skipFrom .value [] tokens

@[simp] theorem skipFrom_after_nil (rest : List Token) : skipFrom .after [] rest = .ok rest := by
  cases rest <;> rfl

theorem length_le_of_skipFrom {place : Place} {stack : List Bracket} {tokens rest : List Token}
    (h : skipFrom place stack tokens = .ok rest) : rest.length ≤ tokens.length := by
  -- every token is one step, and each step may change the place and the open brackets
  induction tokens generalizing place stack with
  | nil => cases place <;> cases stack <;> cases h; exact Nat.le_refl _
  | cons token more ih =>
    unfold skipFrom at h
    split at h
    · cases h; exact Nat.le_refl _
    · next heq => cases heq
    · next heq =>
      cases heq
      split at h
      · exact Nat.le_succ_of_le (ih h)
      · cases h

theorem length_lt_of_skip {tokens rest : List Token} (h : skip tokens = .ok rest) :
    rest.length < tokens.length := by
  cases tokens with
  | nil => cases h
  | cons token more =>
    rw [skip, skipFrom] at h
    · split at h
      · exact Nat.lt_succ_of_le (length_le_of_skipFrom h)
      · cases h
    · simp

end RecordRules.Json
