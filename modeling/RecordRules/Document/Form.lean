/-
What a document gives for a group of settings.

A form says which settings a group has, how each value may be written, and what holds where nothing
is given. The members of an object give a setting a value if just one of them has its key; members
with other keys give nothing. A list gives its values to the settings in their order.

* **`IsChoice`** — a choice is written as a word, or as an object with a null;
* **`Gives`** — what some members give for one key;
* **`Form.Given`** — the group that some members give, setting by setting;
* **`Form.Holds`** — the two ways to write members.
-/
import RecordRules.Json
import RecordRules.Json.Grammar

namespace RecordRules.Document

open Json

/-! ### One value -/

/-- The ways to write the choice with this word. -/
inductive IsChoice (word : String) : List Char → Prop where
  | plain {w : List Char} (spells : Spells word.toList w) : IsChoice word (quoted w)
  | keyed {m : Member} {s : List Char} (isObject : IsObject [m] s) (hasKey : m.HasKey word)
      (isNull : m.value = "null".toList) : IsChoice word s

/-- The ways to write a value or none. -/
def IsNullOr (IsWritten : List Char → β → Prop) : List Char → Option β → Prop
  | w, none => w = "null".toList
  | w, some x => IsWritten w x

/-! ### One key -/

/-- What members give for a key: the value of the only member that has it, or the standard value if
none has it. Where several have it, they give nothing. -/
inductive Gives (key : String) (IsWritten : List Char → β → Prop) (standard : β)
    (members : List Member) : β → Prop where
  | missing (absent : ∀ m ∈ members, ¬ m.HasKey key) : Gives key IsWritten standard members standard
  | once {before after : List Member} {m : Member} {x : β} (split : members = before ++ m :: after)
      (hasKey : m.HasKey key) (alone : ∀ m' ∈ before ++ after, ¬ m'.HasKey key)
      (written : IsWritten m.value x) : Gives key IsWritten standard members x

/-- Whether several members have a key. -/
def Repeated (key : String) (members : List Member) : Prop :=
  ∃ m m', [m, m'].Sublist members ∧ m.HasKey key ∧ m'.HasKey key

/-! ### All keys -/

/-- The settings of a group. Each has a key of its own, and a group is its values. -/
structure Form (α : Type) where
  Setting : Type
  /-- The settings in their order. -/
  all : List Setting
  mem_all : ∀ s, s ∈ all
  nodup_all : all.Nodup
  key : Setting → String
  key_inj : ∀ {s t}, key s = key t → s = t
  Value : Setting → Type
  IsWritten : (s : Setting) → List Char → Value s → Prop
  value : α → (s : Setting) → Value s
  ofValues : ((s : Setting) → Value s) → α
  value_ofValues : ∀ values, value (ofValues values) = values
  ofValues_value : ∀ x, ofValues (value x) = x
  standard : α

namespace Form

variable (form : Form α)

/-- The group that some members give. -/
def Given (members : List Member) (x : α) : Prop :=
  ∀ s, Gives (form.key s) (form.IsWritten s) (form.value form.standard s) members (form.value x s)

/-- Whether no known key is repeated and all known keys have values that can be read. -/
def Admits (members : List Member) : Prop :=
  ∀ s, ¬ Repeated (form.key s) members ∧
    ∀ m ∈ members, m.HasKey (form.key s) → ∃ x, form.IsWritten s m.value x

/-- Members with the keys of some settings and with some values, one for one. -/
def pairUp (settings : List form.Setting) (values : List (List Char)) : List Member :=
  (settings.zip values).map fun (s, value) => ⟨(form.key s).toList.flatMap escape, value⟩

/-- Members with the keys of all settings, in their order, for as long as there are values. -/
def inOrder (values : List (List Char)) : List Member := form.pairUp form.all values

/-- A group is told by its members, which are written as an object. If they are the first of the
settings in their order, then a list of their values will do. -/
inductive Holds : List Member → List Char → Prop where
  | object {members : List Member} {s : List Char} (isObject : IsObject members s) : Holds members s
  | list {values : List (List Char)} {s : List Char} (isList : IsList values s)
      (length : values.length ≤ form.all.length) : Holds (form.inOrder values) s

/-- The ways to write a group. All keys must be texts, also those that are not known. -/
def IsGroup (s : List Char) (x : α) : Prop :=
  ∃ members, form.Holds members s ∧ (∀ m ∈ members, m.HasText) ∧ form.Given members x

end Form

end RecordRules.Document
