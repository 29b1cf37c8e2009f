/-
Every tree is written by the grammar.

* **`spells_escape`** — escaping a text spells it;
* **`isSize_write`** — the decimal numeral of a size is a number that denotes the size;
* **`isList_render`**, **`isObject_render`** — the values of a written list and the members of a
  written object are those of the tree, in their order;
* **`isDocument_render`** — and what is written is a document.
-/
import RecordRules.Json
import RecordRules.Proofs.Json.Lexing

namespace RecordRules.Json

/-! ### Strings -/

/-- The four digits of a control character. -/
theorem hex4?_control {n : Nat} (h : n < 0x20) :
    hex4? '0' '0' (Nat.digitChar (n / 16)) (Nat.digitChar (n % 16)) = some n := by
  have hall : ∀ n : Fin 0x20,
      hex4? '0' '0' (Nat.digitChar (n / 16)) (Nat.digitChar (n % 16)) = some n.val := by decide
  exact hall ⟨n, h⟩

theorem spells_escape_cons (c : Char) {t w : List Char} (h : Spells t w) :
    Spells (c :: t) (escape c ++ w) := by
  unfold escape
  split
  · next hc =>
    subst hc
    exact .letter rfl h
  split
  · next hc =>
    subst hc
    exact .letter rfl h
  split
  · next hcontrol =>
    have hcode : Spells (Char.ofNat c.toNat :: t) _ := .code (hex4?_control hcontrol)
      (by simp [isHighSurrogate]; omega) (by simp [isLowSurrogate]; omega) h
    rwa [Char.ofNat_toNat] at hcode
  · next hquote hslash hcontrol =>
    exact .plain ⟨hquote, hslash, Nat.not_lt.1 hcontrol⟩ h

theorem spells_escape (t : List Char) : Spells t (t.flatMap escape) := by
  induction t with
  | nil => exact .nil
  | cons c t ih => exact spells_escape_cons c ih

/-- A key that is written as it is escaped. -/
theorem hasKey_escape (key : String) (value : List Char) :
    Member.HasKey ⟨key.toList.flatMap escape, value⟩ key := spells_escape _

/-! ### Sizes -/

theorem write_eq_zero_of_head? {n : Nat} (h : (Decimal.write n).head? = some '0') :
    Decimal.write n = ['0'] := by
  fun_induction Decimal.write n with
  | case1 n hn => simpa using h
  | case2 n hn ih =>
    obtain ⟨d, ds, hwrite⟩ := List.exists_cons_of_ne_nil (Decimal.write_ne_nil (n / 10))
    rw [hwrite] at h ih
    -- a zero in front would be all of the quotient
    have hvalue := congrArg Decimal.value (ih h)
    rw [← hwrite, Decimal.value_write] at hvalue
    have hzero : n / 10 = 0 := hvalue
    omega

theorem isSize_write (n : UInt64) : IsSize (Decimal.write n.toNat) n := by
  refine ⟨⟨⟨Decimal.write_ne_nil _, ?_⟩, write_eq_zero_of_head?⟩, Decimal.value_write _⟩
  exact List.all_eq_true.1 (Decimal.all_isDigit_write _)

/-! ### Trees -/

theorem isBlanks_nil : IsBlanks [] := nofun

theorem padded_self (v : List Char) : Padded v v :=
  ⟨[], [], isBlanks_nil, isBlanks_nil, by simp⟩

/-- The members of an object as they are written. -/
def written (members : List (String × Json)) : List Member :=
  members.map fun (key, value) => ⟨key.toList.flatMap escape, value.renderChars⟩

theorem hasText_of_mem_written {members : List (String × Json)} {m : Member}
    (h : m ∈ written members) : m.HasText := by
  obtain ⟨⟨key, value⟩, -, rfl⟩ := List.mem_map.1 h
  exact ⟨key, hasKey_escape _ _⟩

theorem key_mem_of_mem_written {members : List (String × Json)} {m : Member} {key : String}
    (h : m ∈ written members) (hkey : m.HasKey key) : key ∈ members.map Prod.fst := by
  obtain ⟨member, hmem, rfl⟩ := List.mem_map.1 h
  rw [hasKey_unique hkey (hasKey_escape _ _)]
  exact List.mem_map_of_mem hmem

theorem isMember_render {key : String} {value : Json} (h : IsValue value.renderChars) :
    IsMember ⟨key.toList.flatMap escape, value.renderChars⟩
      (renderText key ++ ':' :: value.renderChars) :=
  .mk (spells_escape _).isQuoted h (padded_self _) (padded_self _)

mutual

/-- What is written for a tree is a value. -/
theorem isValue_render : (tree : Json) → IsValue tree.renderChars
  | null => .null
  | bool true => .true
  | bool false => .false
  | size n => .number (.of_isWhole (isSize_write n).1)
  | text _ => .text (spells_escape _).isQuoted
  | list [] => .list (.empty isBlanks_nil)
  | list (item :: items) => .list (.items (isItems_render (item :: items) nofun))
  | object [] => .object (.empty isBlanks_nil)
  | object (member :: members) => .object (.members (isMembers_render (member :: members) nofun))

theorem isItems_render : (items : List Json) → items ≠ [] →
    IsItems (items.map renderChars) (renderItems items)
  | [], h => absurd rfl h
  | [item], _ => .last (isValue_render item) (padded_self _)
  | item :: next :: items, _ =>
    .more (isValue_render item) (padded_self _) (isItems_render (next :: items) nofun)

theorem isMembers_render : (members : List (String × Json)) → members ≠ [] →
    IsMembers (written members) (renderMembers members)
  | [], h => absurd rfl h
  | [(_, value)], _ => .last (isMember_render (isValue_render value))
  | (_, value) :: next :: members, _ =>
    .more (isMember_render (isValue_render value)) (isMembers_render (next :: members) nofun)

end

theorem isList_render (items : List Json) :
    IsList (items.map renderChars) (list items).renderChars := by
  cases items with
  | nil => exact .empty isBlanks_nil
  | cons item items => exact .items (isItems_render (item :: items) nofun)

/-- The members of a written object. -/
theorem isObject_render (members : List (String × Json)) :
    IsObject (written members) (object members).renderChars := by
  cases members with
  | nil => exact .empty isBlanks_nil
  | cons member members => exact .members (isMembers_render (member :: members) nofun)

/-- The text of a tree is a document. -/
theorem isDocument_render {IsSuch : List Char → Prop} {tree : Json} (h : IsSuch tree.renderChars) :
    IsDocument IsSuch tree.render := by
  refine ⟨_, h, ?_⟩
  rw [render, String.toList_ofList]
  exact padded_self _

end RecordRules.Json
