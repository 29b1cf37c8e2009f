/-
What the readers of groups take.

A shape realises a form if the two have the same settings, with the same keys in the same order, and
each setting is read as it may be written. Then the group is read as it may be written.

* **`Shape.Realises.readMembers_cons_iff`** — reading one member of an object, and the rest;
* **`Shape.Realises.readMembers_eq_ok_iff`**, **`Shape.Realises.readItems_eq_ok_iff`** — reading all
  members of an object and all items of a list;
* **`Shape.Realises.readStruct_eq_ok_iff`** — so a group is read as the one that its members give;
* **`Shape.Realises.readText_document`** — and so is a document.
-/
import RecordRules.Proofs.Document.Readers
import RecordRules.Proofs.Json.Skipping
import RecordRules.Proofs.Json.Writing

namespace RecordRules.Document

open Json

/-- A way to read the settings of a form, each as it may be written. -/
structure Shape.Realises (shape : Shape α) (form : Form α) where
  entry : form.Setting → Entry α
  entries_eq : shape.entries = form.all.map entry
  key_entry : ∀ s, (entry s).key = form.key s
  meets : ∀ s group, ((entry s).reader group).Meets fun v group' =>
    ∃ x, form.IsWritten s v x ∧ form.Changes s x group group'
  start_eq : shape.start = form.standard

/-- A reader that puts what it reads into one setting. -/
theorem meets_put (form : Form α) (s : form.Setting) {r : Reader (form.Value s)} {group : α}
    {put : form.Value s → α} (h : r.Meets (form.IsWritten s))
    (hput : ∀ v, form.Changes s v group (put v)) :
    (r.map put).Meets fun v group' => ∃ x, form.IsWritten s v x ∧ form.Changes s x group group' := by
  have hiff : ∀ v group', put v = group' ↔ form.Changes s v group group' :=
    fun v group' => ⟨fun heq => heq ▸ hput v, fun hchanges => (hput v).unique hchanges⟩
  simpa only [hiff] using h.map put

variable {shape : Shape α} {form : Form α} {seen : List String} {group group' x : α} {first : Bool}
  {k : String} {v rest : List Char} {ts : List Token}

/-! ### Keys and commas -/

/-- Some tokens where the next member or item is due: a comma stands before all but the first. -/
def due (first : Bool) (ts : List Token) : List Token := if first then ts else .comma :: ts

theorem nextKey_text : nextKey first (due first (.text k :: ts)) = .ok (some k, ts) := by
  cases first <;> rfl

theorem nextKey_unfit : nextKey first (due first (.unfit true :: ts)) = .error .malformed := by
  cases first <;> rfl

theorem readMembers_closing :
    readMembers shape seen group first (.closing .curly :: ts) = .ok (group, ts) := by
  rw [readMembers]
  split
  · next h => cases h
  · next h => cases h; rfl
  · next h => cases h

/-- Reading goes on behind the first member. -/
theorem readMembers_text :
    readMembers shape seen group first (due first (.text k :: ts))
      = match readMember shape seen group k ts with
        | .error problem => .error problem
        | .ok (group, ts) => readMembers shape (k :: seen) group false ts := by
  rw [readMembers]
  split
  · next h => rw [nextKey_text] at h; cases h
  · next h => rw [nextKey_text] at h; cases h
  · next h =>
    rw [nextKey_text] at h
    cases h
    split <;> simp_all

theorem readMembers_unfit :
    readMembers shape seen group first (due first (.unfit true :: ts))
      = .error (.fault .malformed) := by
  rw [readMembers]
  split
  · next h => rw [nextKey_unfit] at h; cases h; rfl
  · next h => rw [nextKey_unfit] at h; cases h
  · next h => rw [nextKey_unfit] at h; cases h

/-- A setting that is paired with a value gets that value. -/
theorem Form.givenFrom_pairUp_cons {s : form.Setting} {settings : List form.Setting}
    {values : List (List Char)} (hs : form.key s ∉ seen) :
    form.GivenFrom seen group (form.pairUp (s :: settings) (v :: values)) x ↔
      ∃ y group', form.IsWritten s v y ∧ form.Changes s y group group' ∧
        form.GivenFrom (form.key s :: seen) group' (form.pairUp settings values) x := by
  rw [pairUp, List.zip_cons_cons, List.map_cons, givenFrom_cons_known (hasKey_escape _ _),
    and_iff_right hs]
  rfl

theorem Form.hasText_of_mem_inOrder {values : List (List Char)} {m : Member}
    (h : m ∈ form.inOrder values) : m.HasText := by
  obtain ⟨⟨s, value⟩, -, rfl⟩ := List.mem_map.1 h
  exact ⟨form.key s, hasKey_escape _ _⟩

namespace Shape.Realises

variable (real : shape.Realises form)

include real

/-! ### Objects -/

theorem entry?_key (s : form.Setting) : shape.entry? (form.key s) = some (real.entry s) := by
  rw [Shape.entry?, real.entries_eq, List.find?_map]
  cases hfind : form.all.find? ((fun entry => decide (entry.key = form.key s)) ∘ real.entry) with
  | none =>
    have hs := List.find?_eq_none.1 hfind s (form.mem_all s)
    simp [real.key_entry] at hs
  | some t =>
    have ht := List.find?_some hfind
    simp only [Function.comp_apply, decide_eq_true_eq, real.key_entry] at ht
    rw [form.key_inj ht]
    rfl

theorem entry?_eq_none (h : ∀ s, form.key s ≠ k) : shape.entry? k = none := by
  rw [Shape.entry?, real.entries_eq, List.find?_eq_none]
  intro entry hentry
  obtain ⟨s, -, rfl⟩ := List.mem_map.1 hentry
  simpa [real.key_entry] using h s

/-- Reading one member, from behind its key. -/
theorem readMember_eq_ok_iff {m : Member} (hkey : m.HasKey k) (hvalue : IsValue m.value)
    (hrest : Ends rest) :
    readMember shape seen group k (.colon :: tokens (m.value ++ rest)) = .ok (group', ts) ↔
      form.Advances seen group m k group' ∧ ts = tokens rest := by
  by_cases hknown : ∃ s, form.key s = k
  · obtain ⟨s, rfl⟩ := hknown
    rw [readMember, real.entry?_key, Form.advances_known_iff hkey, and_assoc]
    by_cases hseen : form.key s ∈ seen
    · rw [if_pos ⟨rfl, hseen⟩]
      exact ⟨nofun, fun h => absurd hseen h.1⟩
    · rw [if_neg fun h => hseen h.2]
      show ((real.entry s).reader group).read _ = _ ↔ _
      rw [real.meets s group m.value rest group' ts hvalue hrest]
      exact (and_iff_right hseen).symm
  · have hunknown : ∀ s, form.key s ≠ k := fun s hs => hknown ⟨s, hs⟩
    rw [readMember, real.entry?_eq_none hunknown, Form.advances_unknown_iff hkey hunknown,
      if_neg fun h => nomatch h.1]
    show readValue none group _ = _ ↔ _
    rw [readValue, skip_value hvalue hrest, Except.ok.injEq, Prod.mk.injEq, eq_comm (a := group),
      eq_comm (a := tokens rest)]

/-- Reading one member of an object, and the rest. -/
theorem readMembers_cons_iff {m : Member} {s : List Char} (h : IsMember m s) (hrest : Ends rest) :
    readMembers shape seen group first (due first (tokens (s ++ rest))) = .ok (x, ts) ↔
      ∃ k group', form.Advances seen group m k group' ∧
        readMembers shape (k :: seen) group' false (tokens rest) = .ok (x, ts) := by
  obtain ⟨rest', hrest', hends, hvalue, ⟨k, hk, htokens⟩ | ⟨hnot, htokens⟩⟩ := tokens_member h hrest
  · rw [htokens, readMembers_text]
    constructor
    · intro hread
      split at hread
      · cases hread
      · next group' ts' hmember =>
        obtain ⟨hadvances, rfl⟩ := (real.readMember_eq_ok_iff hk hvalue hends).1 hmember
        rw [hrest'] at hread
        exact ⟨k, group', hadvances, hread⟩
    · rintro ⟨k', group', hadvances, hread⟩
      obtain rfl := hasKey_unique hadvances.1 hk
      rw [(real.readMember_eq_ok_iff hk hvalue hends).2 ⟨hadvances, rfl⟩, hrest']
      exact hread
  · rw [htokens, readMembers_unfit]
    exact ⟨nofun, fun ⟨k, _, hadvances, _⟩ => absurd ⟨k, hadvances.1⟩ hnot⟩

/-- Reading all members of an object. -/
theorem readMembers_eq_ok_iff {members : List Member} {s : List Char} (h : IsMembers members s) :
    readMembers shape seen group first (due first (tokens (s ++ '\x7d' :: rest))) = .ok (x, ts) ↔
      ((∀ m ∈ members, m.HasText) ∧ form.GivenFrom seen group members x) ∧ ts = tokens rest := by
  induction members generalizing s seen group first with
  | nil => cases h
  | cons m members ih =>
    rw [Form.givenFrom_cons_iff]
    cases h with
    | last member =>
      simp only [real.readMembers_cons_iff member (.of_head '\x7d' (by simp) rest),
        tokens_closing_curly, readMembers_closing, Form.givenFrom_nil, Except.ok.injEq,
        Prod.mk.injEq, List.not_mem_nil, false_implies, implies_true, true_and]
      simp only [← exists_and_right, and_assoc, eq_comm]
    | more member more =>
      rw [List.append_assoc, List.cons_append,
        real.readMembers_cons_iff member (.of_head ',' (by simp) _)]
      have hmore := fun k group' => @ih (k :: seen) group' false _ more
      simp only [due, Bool.false_eq_true, if_false] at hmore
      simp only [tokens_comma, hmore, ← exists_and_right, and_assoc]

theorem readStruct_object {members : List Member} (h : IsObject members v) :
    readStruct shape (tokens (v ++ rest)) = .ok (x, ts) ↔
      ((∀ m ∈ members, m.HasText) ∧ form.Given members x) ∧ ts = tokens rest := by
  rw [← Form.givenFrom_standard, ← real.start_eq]
  obtain ⟨rfl, htokens⟩ | ⟨s, hmembers, htokens⟩ := tokens_object h rest
  · rw [htokens, readStruct_curly, readMembers_closing, Form.givenFrom_nil, Except.ok.injEq,
      Prod.mk.injEq]
    simp [eq_comm]
  · rw [htokens, readStruct_curly]
    exact real.readMembers_eq_ok_iff hmembers

/-! ### Lists -/

omit real in
theorem readItems_closing (entries : List (Entry α)) :
    readItems entries group first (.closing .square :: ts) = .ok (group, ts) := by
  cases entries <;> rfl

/-- Reading one item of a list, and the rest. -/
theorem readItems_cons_iff {s : form.Setting} {settings : List form.Setting} {padded : List Char}
    (hvalue : IsValue v) (pad : Padded v padded) (hrest : Ends rest) :
    readItems ((s :: settings).map real.entry) group first (due first (tokens (padded ++ rest)))
        = .ok (x, ts) ↔
      ∃ y group', form.IsWritten s v y ∧ form.Changes s y group group' ∧
        readItems (settings.map real.entry) group' false (tokens rest) = .ok (x, ts) := by
  obtain ⟨rest', htokens, hrest', hends⟩ := pad.exists_tokens hrest
  obtain ⟨token, ts', hvalue', hclosing, hcomma⟩ := exists_begins_ne hvalue hends
  have hnext : nextItem first (due first (tokens (padded ++ rest)))
      = .ok (true, tokens (v ++ rest')) := by
    rw [htokens, hvalue']
    cases first <;> cases token <;> simp_all [due, nextItem]
  have hmeets := fun group' ts => real.meets s group v rest' group' ts hvalue hends
  rw [List.map_cons, readItems, hnext]
  constructor
  · intro hread
    simp only at hread
    split at hread
    · cases hread
    · next group' ts hitem =>
      obtain ⟨⟨y, hwritten, hchanges⟩, rfl⟩ := (hmeets _ _).1 hitem
      rw [hrest'] at hread
      exact ⟨y, group', hwritten, hchanges, hread⟩
  · rintro ⟨y, group', hwritten, hchanges, hread⟩
    simp only [(hmeets group' _).2 ⟨⟨y, hwritten, hchanges⟩, rfl⟩, hrest']
    exact hread

omit real in
/-- No item is read where no setting is left. -/
theorem readItems_nil {values : List (List Char)} {s : List Char} (h : IsItems values s) :
    readItems [] group first (due first (tokens (s ++ ']' :: rest))) ≠ .ok (x, ts) := by
  obtain ⟨token, ts', htokens, hclosing, -⟩ : ∃ token ts', tokens (s ++ ']' :: rest) = token :: ts' ∧
      (∀ b, token ≠ .closing b) ∧ token ≠ .comma := by
    cases h with
    | last value pad => exact exists_begins_padded value pad (.of_head ']' (by simp) rest)
    | more value pad more =>
      rw [List.append_assoc, List.cons_append]
      exact exists_begins_padded value pad (.of_head ',' (by simp) _)
  intro hread
  rw [readItems] at hread
  split at hread
  · cases hread
  · next hclose =>
    rw [close_eq_ok_iff, htokens] at hclose
    cases first with
    | true => exact hclosing _ (List.cons.inj hclose).1
    | false => cases (List.cons.inj hclose).1

/-- Reading all items of a list. -/
theorem readItems_eq_ok_iff {values : List (List Char)} {s : List Char} (h : IsItems values s)
    {settings : List form.Setting} (hnodup : settings.Nodup)
    (hseen : ∀ s ∈ settings, form.key s ∉ seen) :
    readItems (settings.map real.entry) group first (due first (tokens (s ++ ']' :: rest)))
        = .ok (x, ts) ↔
      (values.length ≤ settings.length ∧ form.GivenFrom seen group (form.pairUp settings values) x)
        ∧ ts = tokens rest := by
  -- the keys of the items to come are those of the settings to come, so none of them was seen
  induction values generalizing s settings seen group first with
  | nil => cases h
  | cons v values ih =>
    cases settings with
    | nil =>
      exact iff_of_false (readItems_nil h) fun hlength => nomatch hlength.1.1
    | cons i settings =>
      have hi : form.key i ∉ seen := hseen i (by simp)
      rw [List.nodup_cons] at hnodup
      have hseen' : ∀ t ∈ settings, form.key t ∉ form.key i :: seen := by
        intro t ht hmem
        rw [List.mem_cons] at hmem
        rcases hmem with heq | hmem
        · exact hnodup.1 (form.key_inj heq ▸ ht)
        · exact hseen t (by simp [ht]) hmem
      rw [Form.givenFrom_pairUp_cons hi, List.length_cons, List.length_cons, Nat.add_le_add_iff_right]
      cases h with
      | last value pad =>
        simp only [real.readItems_cons_iff value pad (.of_head ']' (by simp) rest),
          tokens_closing_square, readItems_closing, Except.ok.injEq, Prod.mk.injEq]
        simp only [Form.pairUp, List.zip_nil_right, List.map_nil, Form.givenFrom_nil, List.length_nil,
          Nat.zero_le, true_and, ← exists_and_right, and_assoc, eq_comm]
      | more value pad more =>
        have hmore := fun group' => @ih (form.key i :: seen) group' false _ more settings hnodup.2 hseen'
        simp only [due, Bool.false_eq_true, if_false] at hmore
        rw [List.append_assoc, List.cons_append]
        simp only [real.readItems_cons_iff value pad (.of_head ',' (by simp) _), tokens_comma, hmore]
        simp only [← exists_and_right, ← exists_and_left, and_assoc, and_left_comm]

theorem readStruct_list {values : List (List Char)} (h : IsList values v) :
    readStruct shape (tokens (v ++ rest)) = .ok (x, ts) ↔
      (values.length ≤ form.all.length ∧ form.Given (form.inOrder values) x) ∧ ts = tokens rest := by
  rw [← Form.givenFrom_standard, ← real.start_eq]
  obtain ⟨rfl, htokens⟩ | ⟨s, hitems, htokens⟩ := tokens_list h rest
  · rw [htokens, readStruct_square, readItems_closing, Except.ok.injEq, Prod.mk.injEq]
    simp [Form.inOrder, Form.pairUp, Form.givenFrom_nil, eq_comm]
  · rw [htokens, readStruct_square, real.entries_eq]
    exact real.readItems_eq_ok_iff hitems form.nodup_all (by simp)

/-! ### Groups and documents -/

omit real in
theorem exists_opening_of_readStruct {token : Token} {ts' : List Token}
    (h : readStruct shape (token :: ts') = .ok (x, ts)) : ∃ b, token = .opening b := by
  unfold readStruct at h
  split at h
  · next heq => exact ⟨_, (List.cons.inj heq).1⟩
  · next heq => exact ⟨_, (List.cons.inj heq).1⟩
  · cases h

/-- A group is read as the one that its members give. -/
theorem readStruct_eq_ok_iff {members : List Member} (h : form.Holds members v) :
    readStruct shape (tokens (v ++ rest)) = .ok (x, ts) ↔
      ((∀ m ∈ members, m.HasText) ∧ form.Given members x) ∧ ts = tokens rest := by
  cases h with
  | object isObject => exact real.readStruct_object isObject
  | list isList length =>
    rw [real.readStruct_list isList, and_iff_right length,
      and_iff_right fun m => Form.hasText_of_mem_inOrder]

/-- A text holds the same group however it is taken apart. -/
theorem isGroup_iff {members : List Member} (h : form.Holds members v) :
    form.IsGroup v x ↔ (∀ m ∈ members, m.HasText) ∧ form.Given members x := by
  constructor
  · rintro ⟨members', h', hgiven⟩
    have hread : readStruct shape (tokens (v ++ [])) = .ok (x, tokens []) :=
      (real.readStruct_eq_ok_iff h').2 ⟨hgiven, rfl⟩
    exact ((real.readStruct_eq_ok_iff h).1 hread).1
  · exact fun hgiven => ⟨members, h, hgiven⟩

theorem meets_struct : (Reader.struct shape).Meets form.IsGroup := by
  intro v rest x ts hv hrest
  show readStruct shape _ = _ ↔ _
  constructor
  · intro h
    obtain ⟨token, ts', htokens, hbegins⟩ := exists_begins hv hrest
    obtain ⟨_ | _, rfl⟩ := exists_opening_of_readStruct (htokens ▸ h)
    · obtain ⟨values, hlist⟩ := hbegins
      obtain ⟨⟨hlength, hgiven⟩, hts⟩ := (real.readStruct_list hlist).1 h
      exact ⟨⟨_, .list hlist hlength, fun m => Form.hasText_of_mem_inOrder, hgiven⟩, hts⟩
    · obtain ⟨members, hobject⟩ := hbegins
      obtain ⟨hgiven, hts⟩ := (real.readStruct_object hobject).1 h
      exact ⟨⟨members, .object hobject, hgiven⟩, hts⟩
  · rintro ⟨⟨members, hholds, hgiven⟩, hts⟩
    exact (real.readStruct_eq_ok_iff hholds).2 ⟨hgiven, hts⟩

omit real in
theorem readText_eq_ok_iff {text : String} :
    readText shape text = .ok x ↔ readStruct shape (tokens text.toList) = .ok (x, []) := by
  rw [readText]
  cases hread : readStruct shape (tokens text.toList) with
  | error problem => simp
  | ok pair =>
    obtain ⟨group, _ | ⟨token, ts⟩⟩ := pair
    · simp
    · simp

/-- A document is read as the group that its members give, if all their keys are texts. -/
theorem readText_document {text : String} {members : List Member}
    (h : IsDocument (form.Holds members) text) :
    readText shape text = .ok x ↔ (∀ m ∈ members, m.HasText) ∧ form.Given members x := by
  obtain ⟨s, hholds, hpad⟩ := h
  have hnil : Ends [] := nofun
  obtain ⟨rest, htokens, hrest, -⟩ := hpad.exists_tokens hnil
  rw [List.append_nil] at htokens
  rw [readText_eq_ok_iff, htokens, real.readStruct_eq_ok_iff hholds, hrest, tokens_nil,
    and_iff_left rfl]

end Shape.Realises

end RecordRules.Document
