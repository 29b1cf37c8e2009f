/-
Rule texts.

A rule text is a list of tokens separated by commas, each a name or `name=options`. A token
`password=` also takes the tokens after it that assign a password setting; together they make a
group. Tokens with a blank name are passed over.

The text is read from left to right. A group is found by its place in the text, as the bytes between
two offsets, and taken out of the text in one piece.

* **`length_rest_lt`** — every group takes something, so reading comes to an end;
* **`checked_eq_ok_iff`** — a text is accepted exactly when no call in it has a problem.
-/
import RecordRules.Spec.Call
import RecordRules.Text.Slice

namespace RecordRules

open Text Password

/-- The calls that a rule text makes, in order. -/
structure Spec where
  calls : List Spec.Call
  deriving DecidableEq, Repr

namespace Spec

/-! ### Single tokens -/

/-- A call, unless its name is empty. -/
def named (name options : List Char) : Option Call :=
  if name = [] then none else some ⟨String.ofList name, String.ofList options⟩

/-- The call that a token makes on its own. -/
def plainCall? (token : List Char) : Option Call :=
  match cut '=' token with
  | some (name, options) => named (trim name) (trim options)
  | none => named (trim token) []

/-! ### Password groups -/

/-- The name of the rule that opens groups. -/
def groupName : List Char := "password".toList

/-- What is dropped from both ends of a group's options. -/
def isGroupEnd (c : Char) : Bool := c = ',' || isBlank c

/-- Where a group stands in a text that begins with it: its options from byte `start` up to byte
`stop`, and the text after the group. -/
structure Group where
  start : Nat
  stop : Nat
  rest : List Char
  deriving DecidableEq, Repr

/-- Moves the end of a group past the tokens that assign a password setting. The group reaches up
to byte `stop`, and `rest` is the text after the comma there. -/
def absorb (stop : Nat) (rest : List Char) : Nat × List Char :=
  if rest = [] then (stop, rest)
  else if Setting.isAssignment (firstPiece ',' rest).1 then
    -- the comma before the token is one byte
    absorb (stop + 1 + byteLength (firstPiece ',' rest).1) (firstPiece ',' rest).2
  else (stop, rest)
termination_by rest.length
decreasing_by exact length_firstPiece_snd_lt ',' ‹_›

/-- The group at the head of a text, if its first token opens one. -/
def group? (text : List Char) : Option Group :=
  match cut '=' (firstPiece ',' text).1 with
  | some (name, _) =>
    if trim name = groupName then
      let (stop, rest) := absorb (byteLength (firstPiece ',' text).1) (firstPiece ',' text).2
      some ⟨byteLength name + 1, stop, rest⟩
    else none
  | none => none

/-- The options of the group at the head of a text. -/
def Group.options (g : Group) (text : List Char) : List Char :=
  trimEnds isGroupEnd ((slice text g.start g.stop).getD [])

-- what is left of a text is no longer than the text after its first token
theorem length_absorb_le (stop : Nat) (rest : List Char) :
    (absorb stop rest).2.length ≤ rest.length := by
  fun_induction absorb stop rest with
  | case1 => simp
  | case2 stop rest h _ ih =>
    have := length_firstPiece_snd_lt ',' h
    omega
  | case3 => simp

theorem length_rest_lt {text : List Char} {g : Group} (hne : text ≠ []) (h : group? text = some g) :
    g.rest.length < text.length := by
  have hlt := length_firstPiece_snd_lt ',' hne
  unfold group? at h
  split at h
  · split at h
    · simp only [Option.some.injEq] at h
      subst h
      exact Nat.lt_of_le_of_lt (length_absorb_le _ _) hlt
    · cases h
  · cases h

/-! ### Whole texts -/

/-- The calls of a text, from left to right. -/
def scan (text : List Char) : List Call :=
  if text = [] then []
  else match _hg : group? text with
    | some g => ⟨String.ofList groupName, String.ofList (g.options text)⟩ :: scan g.rest
    | none => (plainCall? (firstPiece ',' text).1).toList ++ scan (firstPiece ',' text).2
termination_by text.length
decreasing_by
  · exact length_rest_lt ‹_› ‹_›
  · exact length_firstPiece_snd_lt ',' ‹_›

/-- The calls that a rule text makes. Every text makes some, or none; names are not checked. -/
def ofText (text : String) : Spec := ⟨scan text.toList⟩

def size (s : Spec) : Nat := s.calls.length

def isEmpty (s : Spec) : Bool := s.calls.isEmpty

/-! ### Checking in advance -/

/-- The problem of a call, without a custom password policy. -/
def Call.problem? (c : Call) : Option Problem :=
  match c.rule none with
  | .ok _ => none
  | .error problem => some problem

/-- The calls of a rule text, or the first problem in it. -/
def checked (text : String) : Except Problem Spec :=
  match (ofText text).calls.findSome? Call.problem? with
  | some problem => .error problem
  | none => .ok (ofText text)

theorem checked_eq_ok_iff {text : String} {s : Spec} :
    checked text = .ok s ↔ s = ofText text ∧ ∀ c ∈ s.calls, c.problem? = none := by
  unfold checked
  cases h : (ofText text).calls.findSome? Call.problem? with
  | none =>
    rw [List.findSome?_eq_none_iff] at h
    constructor
    · rintro ⟨⟩
      exact ⟨rfl, h⟩
    · rintro ⟨rfl, -⟩
      rfl
  | some problem =>
    simp only [reduceCtorEq, false_iff, not_and]
    rintro rfl hall
    rw [List.findSome?_eq_none_iff.2 hall] at h
    cases h

end Spec

end RecordRules
