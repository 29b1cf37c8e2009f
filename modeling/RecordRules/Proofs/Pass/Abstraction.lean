/-
Validation sees values only through an abstraction.

What validation sees of a text is the text, and of a sequence its size. Of numbers, truth values and
mappings it sees whether they are zero. It enters a record that a field holds, but not one behind an
optional, of which it sees no more than that it is a record. It sees no type names and no hints.

* **`Value.AlikeHeld.heldViolation?_eq`** — values that look alike behind an optional are the same
  to every rule that looks through it;
* **`Value.Alike.isZero_eq`** — values that look alike are zero together, records at any depth too;
* **`Value.Alike.violation?_eq`** — so all rules find the same with them;
* **`Value.Alike.failures_eq`** — and so do all visits;
* **`Validator.validate_eq_of_alike`** — so records that look alike have the same outcome.
-/
import RecordRules.Proofs.Pass.Enumeration

namespace RecordRules

/-! ### Values that look alike -/

/-- Values without others inside that look alike: equal texts, sequences of one size, and numbers,
truth values and mappings of one kind that are zero together. -/
inductive Value.AlikeLeaf : Value → Value → Prop where
  | text (s : String) : AlikeLeaf (.text s) (.text s)
  | int {m n : Int64} (zero : m = 0 ↔ n = 0) : AlikeLeaf (.int m) (.int n)
  | uint {m n : UInt64} (zero : m = 0 ↔ n = 0) : AlikeLeaf (.uint m) (.uint n)
  | float {x y : Float} (zero : (x == 0.0) = (y == 0.0)) : AlikeLeaf (.float x) (.float y)
  | bool {b c : Bool} (zero : b = false ↔ c = false) : AlikeLeaf (.bool b) (.bool c)
  | sequence (size : UInt64) : AlikeLeaf (.sequence size) (.sequence size)
  | mapping {m n : UInt64} (empty : m = 0 ↔ n = 0) : AlikeLeaf (.mapping m) (.mapping n)
  | absent : AlikeLeaf .absent .absent

/-- Values that look alike behind a present optional, where any two records do. -/
inductive Value.AlikeHeld : Value → Value → Prop where
  | leaf {v w : Value} (h : v.AlikeLeaf w) : AlikeHeld v w
  | present {v w : Value} (h : AlikeHeld v w) : AlikeHeld (.present v) (.present w)
  | record (r r' : Record) : AlikeHeld (.record r) (.record r')

/-- Values that look alike. Each field of a record is paired with the one in its place, which has
the same name, the same rule text and a value that looks alike; the type names and the hints are any
ones. -/
inductive Value.Alike : Value → Value → Prop where
  | leaf {v w : Value} (h : v.AlikeLeaf w) : Alike v w
  | present {v w : Value} (h : v.AlikeHeld w) : Alike (.present v) (.present w)
  | record {r r' : Record} (pairs : List (Field × Field))
      (fields : pairs.map Prod.fst = r.fields)
      (fields' : pairs.map Prod.snd = r'.fields)
      (names : ∀ p ∈ pairs, p.2.name = p.1.name ∧ p.2.rules = p.1.rules)
      (values : ∀ p ∈ pairs, Alike p.1.value p.2.value) :
      Alike (.record r) (.record r')

/-- Records that look alike. -/
abbrev Record.Alike (r r' : Record) : Prop := Value.Alike (.record r) (.record r')

/-! ### What rules see -/

namespace Value

variable {v w : Value}

theorem AlikeLeaf.kind_eq (h : v.AlikeLeaf w) : v.kind = w.kind := by
  cases h <;> rfl

theorem AlikeLeaf.isZero_eq (h : v.AlikeLeaf w) : v.isZero = w.isZero := by
  cases h with
  | text | sequence | absent => rfl
  | int zero | uint zero | mapping zero =>
    rw [Bool.eq_iff_iff, isZero, isZero, beq_iff_eq, beq_iff_eq]
    exact zero
  | float zero => exact zero
  | bool zero =>
    rw [Bool.eq_iff_iff, isZero, isZero, Bool.not_eq_true', Bool.not_eq_true']
    exact zero

/-- Rules that look through optionals find the same with values that look alike behind one. -/
theorem AlikeHeld.heldViolation?_eq (h : v.AlikeHeld w) (rule : Rule) :
    v.held?.bind rule.heldViolation? = w.held?.bind rule.heldViolation? := by
  induction h with
  | leaf h => cases h <;> cases rule <;> rfl
  | present _ ih => exact ih
  | record => cases rule <;> rfl

theorem AlikeLeaf.heldViolation?_eq (h : v.AlikeLeaf w) (rule : Rule) :
    v.held?.bind rule.heldViolation? = w.held?.bind rule.heldViolation? :=
  (AlikeHeld.leaf h).heldViolation?_eq rule

namespace Alike

theorem kind_eq (h : v.Alike w) : v.kind = w.kind := by
  cases h with
  | leaf h => exact h.kind_eq
  | present | record => rfl

/-- Values that look alike are zero together: whether a record is zero is up to the values in its
fields, and to no record behind an optional. -/
theorem isZero_eq (h : v.Alike w) : v.isZero = w.isZero := by
  induction h with
  | leaf h => exact h.isZero_eq
  | present => rfl
  | @record r r' pairs hfields hfields' _ _ ih =>
    rw [isZero_record, isZero_record, ← hfields, ← hfields', List.all_map, List.all_map,
      Bool.eq_iff_iff, List.all_eq_true, List.all_eq_true]
    exact forall₂_congr fun p hp => by rw [Function.comp_apply, Function.comp_apply, ih p hp]

/-- All rules find the same with values that look alike. -/
theorem violation?_eq (h : v.Alike w) (rule : Rule) : rule.violation? v = rule.violation? w := by
  by_cases hrule : rule = .required
  · subst hrule
    rw [Rule.violation?_required, Rule.violation?_required, h.isZero_eq, h.kind_eq]
  · rw [Rule.violation?_of_ne_required hrule, Rule.violation?_of_ne_required hrule]
    cases h with
    | leaf h => exact h.heldViolation?_eq rule
    | present h => exact h.heldViolation?_eq rule
    | record => exact (AlikeHeld.record _ _).heldViolation?_eq rule

end Alike

end Value

/-! ### Failures -/

variable {s : Settings}

/-- A visited field finds the same when its value is replaced by one that looks alike. -/
theorem Visit.failures_eq_of_alike (around : List String) {f g : Field} (hname : g.name = f.name)
    (hrules : g.rules = f.rules) (hvalue : f.value.Alike g.value) :
    Visit.failures s ⟨around, f⟩ = Visit.failures s ⟨around, g⟩ := by
  have hpath : Visit.path ⟨around, g⟩ = Visit.path ⟨around, f⟩ := by simp [Visit.path, hname]
  have hcalls : Visit.calls ⟨around, g⟩ = Visit.calls ⟨around, f⟩ := by
    simp [Visit.calls, Field.calls, hrules]
  have hfinding : ∀ call, s.finding? call g.value = s.finding? call f.value := fun call =>
    (Settings.finding?_congr_value hvalue.violation?_eq s call).symm
  unfold Visit.failures
  rw [hpath, hcalls]
  simp only [hfinding]

/-- The visits of values that look alike find the same failures. -/
theorem Value.Alike.failures_eq {v w : Value} (h : v.Alike w) : ∀ around : List String,
    (v.visits around).flatMap (Visit.failures s) = (w.visits around).flatMap (Visit.failures s) := by
  induction h with
  | leaf h => intro around; cases h <;> rfl
  | present => exact fun _ => rfl
  | @record r r' pairs hfields hfields' hnames hvalues ih =>
    intro around
    have hpair : ∀ p ∈ pairs, (p.1.visits around).flatMap (Visit.failures s)
        = (p.2.visits around).flatMap (Visit.failures s) := by
      intro p hp
      obtain ⟨hname, hrules⟩ := hnames p hp
      rw [Field.visits_eq, Field.visits_eq, List.flatMap_cons, List.flatMap_cons,
        Visit.failures_eq_of_alike around hname hrules (hvalues p hp), ih p hp, hname]
    rw [Value.visits_record, Value.visits_record, ← hfields, ← hfields', List.flatMap_assoc,
      List.flatMap_assoc, List.flatMap_map, List.flatMap_map]
    exact List.flatMap_congr hpair

/-! ### Validations -/

/-- **Validation sees values only through an abstraction.** Records that look alike have the same
outcome under every configuration and policy: the same failures in the same order, with the same
parameters and paths. -/
theorem Validator.validate_eq_of_alike {r r' : Record} (h : r.Alike r') (v : Validator) :
    v.validate r = v.validate r' := by
  have hfailures : r.failures v.settings = r'.failures v.settings := h.failures_eq []
  rw [validate, validate, report_pass, report_pass, report_walk, report_walk, hfailures]

/-- Two orders that look alike, though hardly a value is the same. The record behind the optional is
zero in one of them only and has other fields, and the type names and a hint differ. -/
theorem Validator.validate_eq_of_alike_orders :
    let total (n : Int64) (hint : Option String) : Field :=
      ⟨"total", .int n, "required,min_length=2", hint⟩
    let rebate (x : Float) : Field := ⟨"rebate", .float x, "required", none⟩
    let gift (r : Record) : Field :=
      ⟨"gift", .present (.present (.record r)), "required,email,password", none⟩
    let sums (typeName : String) (n : Int64) (hint : Option String) (x : Float) : Field :=
      ⟨"sums", .record ⟨typeName, [total n hint, rebate x]⟩, "required", none⟩
    let order : Record := ⟨"Order", [sums "Sums" 5 none 0.0, gift ⟨"Gift", []⟩]⟩
    let order' : Record :=
      ⟨"Offer", [sums "Sum" (-9) (some "sum") (-0.0), gift ⟨"Bonus", [total 7 none]⟩]⟩
    order.Alike order' ∧ Validator.standard.validate order = Validator.standard.validate order' := by
  intro total rebate gift sums order order'
  have hsums : Record.Alike ⟨"Sums", [total 5 none, rebate 0.0]⟩
      ⟨"Sum", [total (-9) (some "sum"), rebate (-0.0)]⟩ := by
    refine .record [(total 5 none, total (-9) (some "sum")), (rebate 0.0, rebate (-0.0))] rfl rfl
      ?_ ?_
    · simp [total, rebate]
    · simp only [List.mem_cons, List.not_mem_nil, or_false, forall_eq_or_imp, forall_eq]
      exact ⟨.leaf (.int (by decide)), .leaf (.float (by decide +kernel))⟩
  have horder : order.Alike order' := by
    refine .record [(sums "Sums" 5 none 0.0, sums "Sum" (-9) (some "sum") (-0.0)),
      (gift ⟨"Gift", []⟩, gift ⟨"Bonus", [total 7 none]⟩)] rfl rfl ?_ ?_
    · simp [sums, gift]
    · simp only [List.mem_cons, List.not_mem_nil, or_false, forall_eq_or_imp, forall_eq]
      exact ⟨hsums, .present (.present (.record _ _))⟩
  exact ⟨horder, Validator.validate_eq_of_alike horder .standard⟩

end RecordRules
