/-
Strings in JSON documents.

A string is read up to its closing quote. Whoever wants its text needs every surrogate to be one of
a pair; whoever only skips it does not. So reading a string has three results: it is closed and has
a text, it is closed and has none, or it is broken, in which case reading and skipping may find
different faults first.

* **`length_lt_of_readText`** — a closed string takes at least its closing quote.
-/
import RecordRules.Json.Numeral
import RecordRules.Text.Slice

namespace RecordRules.Json

/-- What becomes of the characters after an opening quote. -/
inductive TextReading where
  /-- The string is closed. Its text is missing if a surrogate in it is not one of a pair. -/
  | closed (content : Option (List Char)) (rest : List Char)
  /-- The string has no end, with the faults found by a reader and by one that skips it. -/
  | broken (read skipped : Fault)

namespace TextReading

/-- The reading with one more character in front. -/
def push (c : Char) : TextReading → TextReading
  | closed content rest => closed (content.map (c :: ·)) rest
  | broken read skipped => broken read skipped

/-- The reading with a surrogate in front that is not one of a pair, for this fault. -/
def unpaired (fault : Fault) : TextReading → TextReading
  | closed _ rest => closed none rest
  | broken _ skipped => broken fault skipped

/-- A string in which reader and skipper find the same fault. -/
def faulty (fault : Fault) : TextReading := broken fault fault

end TextReading

/-! ### Escapes -/

/-- The character that a single letter stands for after a backslash. -/
def unescape? : Char → Option Char
  | '"' => some '"'
  | '\\' => some '\\'
  | '/' => some '/'
  | 'b' => some '\x08'
  | 'f' => some '\x0c'
  | 'n' => some '\n'
  | 'r' => some '\r'
  | 't' => some '\t'
  | _ => none

/-- The value of a hexadecimal digit. -/
def hexDigit? (c : Char) : Option Nat :=
  if c.isDigit then some (c.toNat - '0'.toNat)
  else if 'a' ≤ c ∧ c ≤ 'f' then some (c.toNat - 'a'.toNat + 10)
  else if 'A' ≤ c ∧ c ≤ 'F' then some (c.toNat - 'A'.toNat + 10)
  else none

/-- The number that four hexadecimal digits write. -/
def hex4? (a b c d : Char) : Option Nat := do
  let a ← hexDigit? a
  let b ← hexDigit? b
  let c ← hexDigit? c
  let d ← hexDigit? d
  return ((a * 16 + b) * 16 + c) * 16 + d

/-- The fault of an escape that lacks its four digits: the text ends too early if not even four
bytes are left. -/
def hexFault (rest : List Char) : Fault :=
  if Text.byteLength rest < 4 then .truncated else .malformed

def isHighSurrogate (code : Nat) : Bool := 0xD800 ≤ code && code < 0xDC00

def isLowSurrogate (code : Nat) : Bool := 0xDC00 ≤ code && code < 0xE000

/-- The character that a pair of surrogates writes. -/
def ofSurrogates (high low : Nat) : Char :=
  Char.ofNat (0x10000 + (high - 0xD800) * 0x400 + (low - 0xDC00))

/-- The low surrogate that must follow a high one, and the text after it. -/
def lowSurrogate : List Char → Except Fault (Nat × List Char)
  | [] => .error .truncated
  | ['\\'] => .error .truncated
  | '\\' :: 'u' :: a :: b :: c :: d :: rest =>
    match hex4? a b c d with
    | some low => if isLowSurrogate low then .ok (low, rest) else .error .malformed
    | none => .error .malformed
  | '\\' :: 'u' :: rest => .error (hexFault rest)
  | _ => .error .malformed

theorem length_lt_of_lowSurrogate {s rest : List Char} {low : Nat}
    (h : lowSurrogate s = .ok (low, rest)) : rest.length < s.length := by
  unfold lowSurrogate at h
  split at h
  · cases h
  · cases h
  · split at h
    · split at h
      · cases h; simp only [List.length_cons]; omega
      · cases h
    · cases h
  · cases h
  · cases h

/-! ### Strings -/

/-- Reads a string from behind its opening quote. -/
def readText : List Char → TextReading
  | [] => .faulty .truncated
  | '"' :: rest => .closed (some []) rest
  | '\\' :: 'u' :: a :: b :: c :: d :: rest =>
    match hex4? a b c d with
    | none => .faulty .malformed
    | some code =>
      -- what follows a surrogate on its own is read on, for whoever only skips the string
      if isLowSurrogate code then (readText rest).unpaired .malformed
      else if isHighSurrogate code then
        match _h : lowSurrogate rest with
        | .ok (low, more) => (readText more).push (ofSurrogates code low)
        | .error fault => (readText rest).unpaired fault
      else (readText rest).push (Char.ofNat code)
  | '\\' :: 'u' :: rest => .faulty (hexFault rest)
  | ['\\'] => .faulty .truncated
  | '\\' :: e :: rest =>
    match unescape? e with
    | some c => (readText rest).push c
    | none => .faulty .malformed
  | c :: rest => if c.toNat < 0x20 then .faulty .malformed else (readText rest).push c
termination_by s => s.length
decreasing_by
  all_goals try have := length_lt_of_lowSurrogate ‹_›
  all_goals simp only [List.length_cons]; omega

theorem TextReading.rest_push {reading : TextReading} {c : Char} {content : Option (List Char)}
    {rest : List Char} (h : reading.push c = closed content rest) :
    ∃ content', reading = closed content' rest := by
  cases reading with
  | closed content' rest' => cases h; exact ⟨_, rfl⟩
  | broken => cases h

theorem TextReading.rest_unpaired {reading : TextReading} {fault : Fault}
    {content : Option (List Char)} {rest : List Char}
    (h : reading.unpaired fault = closed content rest) :
    ∃ content', reading = closed content' rest := by
  cases reading with
  | closed content' rest' => cases h; exact ⟨_, rfl⟩
  | broken => cases h

theorem length_lt_of_readText {s rest : List Char} {content : Option (List Char)}
    (h : readText s = .closed content rest) : rest.length < s.length := by
  -- `content` varies, since what is put in front of a text may take it away
  fun_induction readText s generalizing content with
  | case1 => cases h
  | case2 => cases h; simp
  | case3 => cases h
  | case4 a b c d more code _ _ ih =>
    obtain ⟨_, h⟩ := TextReading.rest_unpaired h
    have := ih h
    simp only [List.length_cons]; omega
  | case5 a b c d more code _ _ _ low rest' hlow ih =>
    obtain ⟨_, h⟩ := TextReading.rest_push h
    have := ih h
    have := length_lt_of_lowSurrogate hlow
    simp only [List.length_cons]; omega
  | case6 a b c d more code _ _ _ fault _ ih =>
    obtain ⟨_, h⟩ := TextReading.rest_unpaired h
    have := ih h
    simp only [List.length_cons]; omega
  | case7 a b c d more code _ _ _ ih =>
    obtain ⟨_, h⟩ := TextReading.rest_push h
    have := ih h
    simp only [List.length_cons]; omega
  | case8 => cases h
  | case9 => cases h
  | case10 e more _ _ c _ ih =>
    obtain ⟨_, h⟩ := TextReading.rest_push h
    have := ih h
    simp only [List.length_cons]; omega
  | case11 => cases h
  | case12 => cases h
  | case13 c more _ _ _ _ _ _ ih =>
    obtain ⟨_, h⟩ := TextReading.rest_push h
    have := ih h
    simp only [List.length_cons]; omega

end RecordRules.Json
