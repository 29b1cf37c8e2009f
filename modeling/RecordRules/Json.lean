/-
JSON trees and their compact text.

Trees hold what this library has to write: sizes are the only numbers. An object keeps the order in
which its keys were first given; giving a key again replaces its value.

* **`get?_ofPairs`** — an object made from pairs answers a key with the last value given for it;
* **`keys_ofPairs_nodup`** — and has every key once.
-/
import RecordRules.Decimal

namespace RecordRules

/-- A JSON tree whose numbers are sizes. -/
inductive Json where
  | null
  | bool (b : Bool)
  | size (n : UInt64)
  | text (s : String)
  | list (items : List Json)
  | object (members : List (String × Json))

namespace Json

/-! ### Objects -/

/-- Sets the value of a key, in its place if the key is there and at the end if it is not. -/
def put (key : String) (value : Json) : List (String × Json) → List (String × Json)
  | [] => [(key, value)]
  | member :: rest =>
    if member.1 = key then (key, value) :: rest else member :: put key value rest

/-- The object that the pairs make, given one after another. -/
def ofPairs (pairs : List (String × Json)) : Json :=
  object (pairs.foldl (fun members (key, value) => put key value members) [])

/-- The value of a key of an object. -/
def get? : Json → String → Option Json
  | object members, key => members.lookup key
  | _, _ => none

/-- The keys of an object. -/
def keys : Json → List String
  | object members => members.map Prod.fst
  | _ => []

theorem lookup_put (key : String) (value : Json) (members : List (String × Json)) (k : String) :
    (put key value members).lookup k = if k = key then some value else members.lookup k := by
  induction members with
  | nil =>
    by_cases hk : k = key
    · simp [put, hk]
    · simp [put, hk, List.lookup_cons, beq_eq_false_iff_ne.2 hk]
  | cons member rest ih =>
    obtain ⟨key', value'⟩ := member
    by_cases hm : key' = key
    · subst hm
      by_cases hk : k = key' <;> simp [put, List.lookup_cons, hk, beq_eq_false_iff_ne.2]
    · by_cases hk : k = key'
      · subst hk
        simp [put, hm]
      · simp [put, hm, List.lookup_cons, beq_eq_false_iff_ne.2 hk, ih]

theorem get?_ofPairs (pairs : List (String × Json)) (key : String) :
    (ofPairs pairs).get? key = pairs.reverse.lookup key := by
  -- for any members to start from, since the fold goes on from those it has
  suffices h : ∀ members : List (String × Json),
      (pairs.foldl (fun members (key, value) => put key value members) members).lookup key
        = (pairs.reverse.lookup key).or (members.lookup key) by
    simpa [ofPairs, get?] using h []
  induction pairs with
  | nil => simp
  | cons pair pairs ih =>
    intro members
    obtain ⟨k, v⟩ := pair
    rw [List.foldl_cons, ih, lookup_put, List.reverse_cons, List.lookup_append, Option.or_assoc]
    by_cases hk : key = k
    · simp [hk]
    · simp [hk, List.lookup_cons, beq_eq_false_iff_ne.2 hk]

theorem map_fst_put (key : String) (value : Json) (members : List (String × Json)) :
    (put key value members).map Prod.fst
      = if key ∈ members.map Prod.fst then members.map Prod.fst
        else members.map Prod.fst ++ [key] := by
  induction members with
  | nil => simp [put]
  | cons member rest ih =>
    by_cases hm : member.1 = key
    · simp [put, hm]
    · simp only [put, hm, if_false, List.map_cons, ih, List.mem_cons, Ne.symm hm, false_or]
      split <;> simp

theorem keys_ofPairs_nodup (pairs : List (String × Json)) : (ofPairs pairs).keys.Nodup := by
  suffices h : ∀ members : List (String × Json), (members.map Prod.fst).Nodup →
      ((pairs.foldl (fun members (key, value) => put key value members) members).map
        Prod.fst).Nodup from h [] (by simp)
  induction pairs with
  | nil => exact fun _ h => h
  | cons pair pairs ih =>
    intro members h
    refine ih _ ?_
    rw [map_fst_put]
    split
    · exact h
    · next hk =>
      rw [List.nodup_append]
      refine ⟨h, by simp, ?_⟩
      rintro a ha b hb rfl
      exact hk (List.mem_singleton.1 hb ▸ ha)

/-! ### Compact text -/

/-- A character inside a JSON string. Quotes, backslashes and controls are escaped. -/
def escape (c : Char) : List Char :=
  if c = '"' then ['\\', '"']
  else if c = '\\' then ['\\', '\\']
  else if c.toNat < 0x20 then
    "\\u00".toList ++ [Nat.digitChar (c.toNat / 16), Nat.digitChar (c.toNat % 16)]
  else [c]

/-- The JSON string for a text. -/
def renderText (s : String) : List Char := '"' :: s.toList.flatMap escape ++ ['"']

mutual

/-- The text of a tree, without any blanks. -/
def renderChars : Json → List Char
  | null => "null".toList
  | bool b => if b then "true".toList else "false".toList
  | size n => Decimal.write n.toNat
  | text s => renderText s
  | list items => '[' :: renderItems items ++ [']']
  | object members => '\x7b' :: renderMembers members ++ ['\x7d']

/-- The texts of list items, with commas between them. -/
def renderItems : List Json → List Char
  | [] => []
  | [item] => renderChars item
  | item :: rest => renderChars item ++ ',' :: renderItems rest

/-- The texts of object members, with commas between them. -/
def renderMembers : List (String × Json) → List Char
  | [] => []
  | [(key, value)] => renderText key ++ ':' :: renderChars value
  | (key, value) :: rest => renderText key ++ ':' :: renderChars value ++ ',' :: renderMembers rest

end

/-- The compact text of a tree. -/
def render (tree : Json) : String := String.ofList tree.renderChars

end Json

end RecordRules
