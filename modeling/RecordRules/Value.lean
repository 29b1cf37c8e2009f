/-
Values, fields and records.

A value is what the rules see of one field: a text, a number, a truth value, the size of a
collection, something that may be absent, or another record. A record has a type name and fields in
declaration order; a field has a name, a value, the text of its rules and, for diagnostics only, the
name that it is serialized under. `ToValue` says how data of a type looks to the rules, `ToRecord`
does so for types with fields.

* **`Value.induction`** — a property of the fields' values of every record and of what is held by
  every optional holds of all values;
* **`Value.isZero_record`** — a record is zero when all its fields are;
* **`Value.held?_of_present`**, **`Value.held?_of_kind`** — what is held under any number of present
  optionals, and by a value that is none;
* **`Value.held?_eq_none_iff`** — what holds nothing is an absent optional, under any number of
  present ones.
-/
import RecordRules.Decimal.Shortest
import RecordRules.Text.Quoted
import Std.Data.HashMap
import Std.Data.HashSet
import Std.Data.TreeMap
import Std.Data.TreeSet

namespace RecordRules

/-- The shape of a value. -/
inductive Kind where
  | string
  | int
  | uint
  | float
  | bool
  | sequence
  | mapping
  | optional
  | record
  deriving DecidableEq, Repr

/-- The word for a kind in messages. -/
def Kind.name : Kind → String
  | .string => "string"
  | .int => "int"
  | .uint => "uint"
  | .float => "float"
  | .bool => "bool"
  | .sequence => "sequence"
  | .mapping => "mapping"
  | .optional => "optional"
  | .record => "record"

mutual

/-- What the rules see of a field. Of a collection they see its size alone. -/
inductive Value where
  | text (s : String)
  | int (n : Int64)
  | uint (n : UInt64)
  | float (x : Float)
  | bool (b : Bool)
  | sequence (size : UInt64)
  | mapping (size : UInt64)
  | absent
  | present (value : Value)
  | record (r : Record)

/-- A value with named fields, in declaration order. Names may repeat and may be empty. -/
structure Record where
  typeName : String
  fields : List Field

/-- One field of a record, with the text of its rules. -/
structure Field where
  name : String
  value : Value
  rules : String
  /-- The name that the field is serialized under, for diagnostics only. -/
  hint : Option String

end

instance : Inhabited Value := ⟨.absent⟩

namespace Value

/-! ### Induction -/

/-- Induction over values: through what an optional holds and through all fields of a record. -/
theorem induction {P : Value → Prop} (text : ∀ s, P (.text s)) (int : ∀ n, P (.int n))
    (uint : ∀ n, P (.uint n)) (float : ∀ x, P (.float x)) (bool : ∀ b, P (.bool b))
    (sequence : ∀ n, P (.sequence n)) (mapping : ∀ n, P (.mapping n)) (absent : P .absent)
    (present : ∀ v, P v → P (.present v))
    (record : ∀ r : Record, (∀ f ∈ r.fields, P f.value) → P (.record r)) : ∀ v, P v := by
  intro v
  -- the motives of records, fields and lists of fields are about the values in them
  refine @Value.rec P (fun r => ∀ f ∈ r.fields, P f.value) (fun f => P f.value)
    (fun fs => ∀ f ∈ fs, P f.value) text int uint float bool sequence mapping absent present
    record ?_ ?_ ?_ ?_ v
  · exact fun _ _ h => h
  · exact fun _ _ _ _ h => h
  · simp
  · intro f fs hf hfs g hg
    rcases List.mem_cons.1 hg with rfl | hg
    · exact hf
    · exact hfs g hg

/-! ### Kinds -/

def kind : Value → Kind
  | text _ => .string
  | int _ => .int
  | uint _ => .uint
  | float _ => .float
  | bool _ => .bool
  | sequence _ => .sequence
  | mapping _ => .mapping
  | absent | present _ => .optional
  | record _ => .record

/-- The text of a text. -/
def text? : Value → Option String
  | text s => some s
  | _ => none

/-! ### Zero values -/

mutual

/-- Whether a value is the zero value of its kind. A present optional is not, whatever it holds; a
record is when all its fields are. -/
def isZero : Value → Bool
  | text s => s.isEmpty
  | int n => n == 0
  | uint n => n == 0
  | float x => x == 0.0
  | bool b => !b
  | sequence size => size == 0
  | mapping size => size == 0
  | absent => true
  | present _ => false
  | record r => recordIsZero r

/-- Whether all fields of a record are zero. -/
def recordIsZero : Record → Bool
  | ⟨_, fields⟩ => allZero fields

/-- Whether all of some fields are zero. -/
def allZero : List Field → Bool
  | [] => true
  | ⟨_, value, _, _⟩ :: rest => value.isZero && allZero rest

end

theorem allZero_eq (fields : List Field) : allZero fields = fields.all (·.value.isZero) := by
  induction fields with
  | nil => rfl
  | cons f fields ih => cases f; rw [List.all_cons, ← ih]; rfl

@[simp] theorem isZero_record (r : Record) :
    (record r).isZero = r.fields.all (·.value.isZero) := by
  cases r; rw [← allZero_eq]; rfl

/-! ### Optionals -/

/-- The value under any number of present optionals; nothing where one of them is absent. -/
def held? : Value → Option Value
  | absent => none
  | present value => value.held?
  | value => some value

/-- A value put under this many present optionals. -/
def wrapped (v : Value) : Nat → Value
  | 0 => v
  | n + 1 => present (v.wrapped n)

@[simp] theorem held?_absent : absent.held? = none := rfl

@[simp] theorem held?_of_present (v : Value) : (present v).held? = v.held? := rfl

theorem held?_of_kind {v : Value} (h : v.kind ≠ .optional) : v.held? = some v := by
  cases v <;> first | rfl | exact absurd rfl h

theorem kind_of_held? {v w : Value} (h : v.held? = some w) : w.kind ≠ .optional := by
  induction v using Value.induction with
  | present v ih => exact ih (by simpa using h)
  | absent => simp at h
  | _ => cases h; simp [kind]

@[simp] theorem held?_wrapped (v : Value) (n : Nat) : (v.wrapped n).held? = v.held? := by
  induction n with
  | zero => rfl
  | succ n ih => exact ih

theorem held?_eq_none_iff {v : Value} : v.held? = none ↔ ∃ n, v = absent.wrapped n := by
  constructor
  · intro h
    induction v using Value.induction with
    | absent => exact ⟨0, rfl⟩
    | present v ih =>
      obtain ⟨n, rfl⟩ := ih h
      exact ⟨n + 1, rfl⟩
    | text | int | uint | float | bool | sequence | mapping | record => cases h
  · rintro ⟨n, rfl⟩
    exact held?_wrapped absent n

/-! ### Diagnostic texts -/

/-- Diagnostics write numbers from 0.0001 to below 10 ^ 16 in positional notation, mark other
exponents by a bare `e`, and take the upper of two equally near decimals. -/
def floatLayout : Decimal.Layout := ⟨-4, 15, "e", .up⟩

/-- The diagnostic text of a value. -/
def describe : Value → String
  | text s => "Str(" ++ Text.quote s ++ ")"
  | int n => "Int(" ++ Decimal.ofInt n.toInt ++ ")"
  | uint n => "Uint(" ++ Decimal.ofNat n.toNat ++ ")"
  | float x => "Float(" ++ floatLayout.text x ++ ")"
  | bool b => "Bool(" ++ (if b then "true" else "false") ++ ")"
  | sequence size => "Seq(" ++ Decimal.ofNat size.toNat ++ ")"
  | mapping size => "Map(" ++ Decimal.ofNat size.toNat ++ ")"
  | absent => "Optional(None)"
  | present value => "Optional(Some(" ++ value.describe ++ "))"
  | record r => "Record(" ++ Text.quote r.typeName ++ ")"

end Value

/-! ### Ordinary data as values

A collection shows its size, an optional what it holds, and a type with fields is a record. -/

/-- Types whose data can be looked at as a value. -/
class ToValue (α : Type u) where
  toValue : α → Value

/-- Types with fields. The fields of one value are the same however often one asks. -/
class ToRecord (α : Type u) where
  toRecord : α → Record

export ToValue (toValue)
export ToRecord (toRecord)

/-- A field without rules. -/
def Field.of [ToValue α] (name : String) (x : α) : Field := ⟨name, toValue x, "", none⟩

/-- The field with these rules. -/
def Field.withRules (f : Field) (rules : String) : Field := { f with rules }

/-- The field with this serialization name. -/
def Field.withHint (f : Field) (hint : String) : Field := { f with hint := some hint }

/-! ### Scalars -/

instance : ToValue Value := ⟨id⟩
instance : ToValue String := ⟨.text⟩
instance : ToValue Bool := ⟨.bool⟩
instance : ToValue Int8 := ⟨fun n => .int n.toInt64⟩
instance : ToValue Int16 := ⟨fun n => .int n.toInt64⟩
instance : ToValue Int32 := ⟨fun n => .int n.toInt64⟩
instance : ToValue Int64 := ⟨.int⟩
instance : ToValue UInt8 := ⟨fun n => .uint n.toUInt64⟩
instance : ToValue UInt16 := ⟨fun n => .uint n.toUInt64⟩
instance : ToValue UInt32 := ⟨fun n => .uint n.toUInt64⟩
instance : ToValue UInt64 := ⟨.uint⟩
instance : ToValue Float := ⟨.float⟩
instance : ToValue Float32 := ⟨fun x => .float x.toFloat⟩

/-! ### Collections -/

instance : ToValue (List α) := ⟨fun xs => .sequence xs.length.toUInt64⟩
instance : ToValue (Array α) := ⟨fun xs => .sequence xs.size.toUInt64⟩
instance [BEq α] [Hashable α] : ToValue (Std.HashSet α) := ⟨fun s => .sequence s.size.toUInt64⟩
instance [Ord α] : ToValue (Std.TreeSet α) := ⟨fun s => .sequence s.size.toUInt64⟩
instance [BEq α] [Hashable α] : ToValue (Std.HashMap α β) := ⟨fun m => .mapping m.size.toUInt64⟩
instance [Ord α] : ToValue (Std.TreeMap α β) := ⟨fun m => .mapping m.size.toUInt64⟩

/-! ### Optionals and records -/

instance [ToValue α] : ToValue (Option α) where
  toValue
    | none => .absent
    | some x => .present (toValue x)

instance [ToRecord α] : ToValue α := ⟨fun x => .record (toRecord x)⟩

end RecordRules
