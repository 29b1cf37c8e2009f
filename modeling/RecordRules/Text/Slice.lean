/-
Slices of a text between two byte offsets of its UTF-8 form.

An offset inside a character is no place to cut, so a slice is optional.

* **`byteLength_append`** — lengths add up;
* **`slice_append`**, **`exists_of_slice_eq_some`** — the slice between the lengths of a text's
  first part and of its first two parts is the second part, and there are no other slices;
* **`bounds_of_slice_eq_some`** — so both offsets are valid positions in the string.
-/

namespace RecordRules.Text

/-- The number of bytes of a text in UTF-8. -/
def byteLength : List Char → Nat
  | [] => 0
  | c :: rest => c.utf8Size + byteLength rest

/-- The text from byte `offset` on, if a character starts there or the text ends there. -/
def dropBytes : Nat → List Char → Option (List Char)
  | 0, s => some s
  | _ + 1, [] => none
  | offset + 1, c :: rest =>
    if c.utf8Size ≤ offset + 1 then dropBytes (offset + 1 - c.utf8Size) rest else none

/-- The first `count` bytes of a text, if they are whole characters of it. -/
def takeBytes : Nat → List Char → Option (List Char)
  | 0, _ => some []
  | _ + 1, [] => none
  | count + 1, c :: rest =>
    if c.utf8Size ≤ count + 1 then (takeBytes (count + 1 - c.utf8Size) rest).map (c :: ·) else none

/-- The text from byte `start` up to byte `stop`. -/
def slice (s : List Char) (start stop : Nat) : Option (List Char) :=
  if start ≤ stop then (dropBytes start s).bind (takeBytes (stop - start)) else none

@[simp] theorem byteLength_append (a b : List Char) :
    byteLength (a ++ b) = byteLength a + byteLength b := by
  induction a with
  | nil => simp [byteLength]
  | cons c a ih => simp [byteLength, ih, Nat.add_assoc]

@[simp] theorem dropBytes_append (a b : List Char) :
    dropBytes (byteLength a) (a ++ b) = some b := by
  induction a with
  | nil => simp [byteLength, dropBytes]
  | cons c a ih =>
    -- no character is empty, so the count is a successor and the definition unfolds
    have hc : 0 < c.utf8Size := c.utf8Size_pos
    obtain ⟨n, hn⟩ : ∃ n, c.utf8Size + byteLength a = n + 1 :=
      ⟨c.utf8Size + byteLength a - 1, by omega⟩
    have hle : c.utf8Size ≤ n + 1 := by omega
    have hsub : n + 1 - c.utf8Size = byteLength a := by omega
    simp [byteLength, hn, dropBytes, hle, hsub, ih]

@[simp] theorem takeBytes_append (a b : List Char) :
    takeBytes (byteLength a) (a ++ b) = some a := by
  induction a with
  | nil => simp [byteLength, takeBytes]
  | cons c a ih =>
    have hc : 0 < c.utf8Size := c.utf8Size_pos
    obtain ⟨n, hn⟩ : ∃ n, c.utf8Size + byteLength a = n + 1 :=
      ⟨c.utf8Size + byteLength a - 1, by omega⟩
    have hle : c.utf8Size ≤ n + 1 := by omega
    have hsub : n + 1 - c.utf8Size = byteLength a := by omega
    simp [byteLength, hn, takeBytes, hle, hsub, ih]

/-- What is dropped are whole characters of that many bytes. -/
theorem exists_of_dropBytes_eq_some {offset : Nat} {s rest : List Char}
    (h : dropBytes offset s = some rest) : ∃ a, s = a ++ rest ∧ byteLength a = offset := by
  fun_induction dropBytes offset s with
  | case1 s =>
    obtain rfl := Option.some.inj h
    exact ⟨[], rfl, rfl⟩
  | case2 => cases h
  | case3 offset c s hle ih =>
    obtain ⟨a, rfl, ha⟩ := ih h
    refine ⟨c :: a, rfl, ?_⟩
    rw [byteLength, ha]
    omega
  | case4 => cases h

theorem exists_of_takeBytes_eq_some {count : Nat} {s first : List Char}
    (h : takeBytes count s = some first) : byteLength first = count ∧ ∃ b, s = first ++ b := by
  fun_induction takeBytes count s generalizing first with
  | case1 s =>
    obtain rfl := Option.some.inj h
    exact ⟨rfl, s, rfl⟩
  | case2 => cases h
  | case3 count c s hle ih =>
    obtain ⟨first, hfirst, rfl⟩ := Option.map_eq_some_iff.1 h
    obtain ⟨hlength, b, rfl⟩ := ih hfirst
    refine ⟨?_, b, rfl⟩
    rw [byteLength, hlength]
    omega
  | case4 => cases h

theorem slice_append (a b c : List Char) :
    slice (a ++ b ++ c) (byteLength a) (byteLength a + byteLength b) = some b := by
  simp [slice, List.append_assoc]

/-- A slice is a part of its text, and its offsets are where the part begins and ends. -/
theorem exists_of_slice_eq_some {s b : List Char} {start stop : Nat}
    (h : slice s start stop = some b) :
    ∃ a c, s = a ++ b ++ c ∧ start = byteLength a ∧ stop = byteLength (a ++ b) := by
  unfold slice at h
  obtain ⟨hle, hcut⟩ := Option.ite_none_right_eq_some.1 h
  obtain ⟨rest, hdrop, htake⟩ := Option.bind_eq_some_iff.1 hcut
  obtain ⟨a, rfl, ha⟩ := exists_of_dropBytes_eq_some hdrop
  obtain ⟨hb, c, rfl⟩ := exists_of_takeBytes_eq_some htake
  refine ⟨a, c, (List.append_assoc a b c).symm, ha.symm, ?_⟩
  rw [byteLength_append, ha, hb]
  omega

/-! ### Strings -/

theorem byteLength_eq_utf8ByteSize (s : List Char) :
    byteLength s = (String.ofList s).utf8ByteSize := by
  induction s with
  | nil => rfl
  | cons c s ih =>
    rw [byteLength, ih, ← String.utf8ByteSize_singleton, ← String.utf8ByteSize_append,
      String.singleton_eq_ofList, ← String.ofList_append]
    rfl

theorem isValid_byteLength (a b : List Char) :
    String.Pos.Raw.IsValid (String.ofList (a ++ b)) ⟨byteLength a⟩ := by
  refine String.Pos.Raw.isValid_iff_exists_append.2 ⟨String.ofList a, String.ofList b, ?_, ?_⟩
  · exact String.ofList_append
  · rw [byteLength_eq_utf8ByteSize]
    rfl

/-- Where there is a slice, its offsets are positions in the string, in their order. -/
theorem bounds_of_slice_eq_some {s b : List Char} {start stop : Nat}
    (h : slice s start stop = some b) :
    start ≤ stop ∧ stop ≤ (String.ofList s).utf8ByteSize ∧
      String.Pos.Raw.IsValid (String.ofList s) ⟨start⟩ ∧
      String.Pos.Raw.IsValid (String.ofList s) ⟨stop⟩ := by
  obtain ⟨a, c, rfl, rfl, rfl⟩ := exists_of_slice_eq_some h
  refine ⟨?_, ?_, ?_, isValid_byteLength (a ++ b) c⟩
  · rw [byteLength_append]
    omega
  · rw [← byteLength_eq_utf8ByteSize, byteLength_append (a ++ b)]
    omega
  · rw [List.append_assoc]
    exact isValid_byteLength a (b ++ c)

end RecordRules.Text
