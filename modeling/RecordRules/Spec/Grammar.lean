/-
The grammar of rule texts, over tokens.

Here a rule text is the list of its tokens, and a group is a list of tokens: the text after the
equals sign of the token that opens it, and the longest run of tokens after that which assign a
password setting.

A call is written as its name, followed by an equals sign and the options where there are any. A
rule text is written with two commas between calls: the empty token between them ends a group. And
blanks can be put into a rule text, at both ends of each token and on both sides of its first equals
sign.

* **`ofTokens`** — the calls, read from left to right;
* **`runs`** — the tokens themselves, those of one group together;
* **`endsInGroup`** — whether the last token belongs to a group;
* **`write`**, **`Call.WellFormed`** — the text of some calls, and the calls that texts can make;
* **`spaced`**, **`Call.Agrees`** — a rule text with blanks, and calls that mean the same, though a
  group's options may be written with other blanks.
-/
import RecordRules.Spec

namespace RecordRules.Spec

open Text Password

/-- The text after the equals sign of a token that opens a group. -/
def opening? (token : List Char) : Option (List Char) :=
  (cut '=' token).bind fun (name, options) => if trim name = groupName then some options else none

/-- The call of a group, given the text after its first equals sign and its further tokens. -/
def groupCall (options : List Char) (absorbed : List (List Char)) : Call :=
  ⟨String.ofList groupName,
    String.ofList (trimEnds isGroupEnd ([','].intercalate (options :: absorbed)))⟩

/-- The calls that a list of tokens makes. -/
def ofTokens : List (List Char) → List Call
  | [] => []
  | token :: rest =>
    match opening? token with
    | some options =>
      groupCall options (rest.takeWhile Setting.isAssignment)
        :: ofTokens (rest.dropWhile Setting.isAssignment)
    | none => (plainCall? token).toList ++ ofTokens rest
termination_by tokens => tokens.length
decreasing_by
  · exact Nat.lt_succ_of_le (List.dropWhile_sublist _).length_le
  · simp

/-- The tokens, each group with all of its tokens and every other token alone. -/
def runs : List (List Char) → List (List (List Char))
  | [] => []
  | token :: rest =>
    if (opening? token).isSome then
      (token :: rest.takeWhile Setting.isAssignment) :: runs (rest.dropWhile Setting.isAssignment)
    else [token] :: runs rest
termination_by tokens => tokens.length
decreasing_by
  · exact Nat.lt_succ_of_le (List.dropWhile_sublist _).length_le
  · simp

/-- The call that a run of tokens makes, if it makes one. -/
def runCall? : List (List Char) → Option Call
  | [] => none
  | token :: absorbed =>
    match opening? token with
    | some options => some (groupCall options absorbed)
    | none => plainCall? token

/-- Whether the last of some tokens belongs to a group: it opens one, or one has taken it. -/
def endsInGroup (tokens : List (List Char)) : Bool :=
  (runs tokens).getLast?.any fun run => run.head?.any fun token => (opening? token).isSome

/-- Whether a token has no name: what comes before its first equals sign, or all of it where it has
none, is blank. -/
def isNameless (token : List Char) : Bool := (trim (firstPiece '=' token).1).isEmpty

/-! ### Token by token -/

@[simp] theorem ofTokens_nil : ofTokens [] = [] := by rw [ofTokens]

theorem ofTokens_group {token options : List Char} {rest : List (List Char)}
    (h : opening? token = some options) :
    ofTokens (token :: rest)
      = groupCall options (rest.takeWhile Setting.isAssignment)
        :: ofTokens (rest.dropWhile Setting.isAssignment) := by
  rw [ofTokens, h]

theorem ofTokens_plain {token : List Char} {rest : List (List Char)} (h : opening? token = none) :
    ofTokens (token :: rest) = (plainCall? token).toList ++ ofTokens rest := by
  rw [ofTokens, h]

/-! ### Written forms -/

/-- The text of a call. -/
def Call.write (c : Call) : List Char :=
  if c.options.isEmpty then c.name.toList else c.name.toList ++ '=' :: c.options.toList

/-- The text of some calls. -/
def write (calls : List Call) : List Char := [',', ','].intercalate (calls.map Call.write)

/-- The calls that rule texts can make. The name is not empty, is trimmed and has neither comma nor
equals sign. Options are trimmed and have no comma; a group's are trimmed of commas too, and every
part after their first comma assigns a password setting. -/
structure Call.WellFormed (c : Call) : Prop where
  name_ne : c.name.toList ≠ []
  name_trim : trim c.name.toList = c.name.toList
  comma_not_mem_name : ',' ∉ c.name.toList
  equals_not_mem_name : '=' ∉ c.name.toList
  plain_options : c.name.toList ≠ groupName →
    trim c.options.toList = c.options.toList ∧ ',' ∉ c.options.toList
  group_options : c.name.toList = groupName →
    trimEnds isGroupEnd c.options.toList = c.options.toList ∧
      ∀ part ∈ (pieces ',' c.options.toList).tail, Setting.isAssignment part = true

/-! ### Blanks -/

/-- A text of blanks. -/
structure Blanks where
  chars : List Char
  isBlank_of_mem : ∀ c ∈ chars, isBlank c = true

/-- The blanks to put at both ends of a token and on both sides of its first equals sign. -/
structure Spacing where
  before : Blanks
  left : Blanks
  right : Blanks
  after : Blanks

/-- A token with blanks put in. -/
def Spacing.around (s : Spacing) (token : List Char) : List Char :=
  match cut '=' token with
  | some (name, options) =>
    (s.before.chars ++ name ++ s.left.chars) ++ '=' :: (s.right.chars ++ options ++ s.after.chars)
  | none => s.before.chars ++ token ++ s.after.chars

/-- A rule text with blanks put into each of its tokens. -/
def spaced (spacings : Nat → Spacing) (text : String) : String :=
  String.ofList ([','].intercalate
    ((pieces ',' text.toList).mapIdx fun i token => (spacings i).around token))

/-- Two calls that mean the same: they have one name and the same options, or options that make the
same policy of every custom one and are bad by the same part. -/
structure Call.Agrees (c d : Call) : Prop where
  name_eq : d.name = c.name
  options_eq : c.name ≠ "password" → d.options = c.options
  effective_eq : c.name = "password" →
    ∀ custom, Policy.effective d.options custom = Policy.effective c.options custom

end RecordRules.Spec
