/-
Documents that give only some settings.

The members of a document tell all there is to know about it. Unknown keys are skipped with their
values, whatever these are; known keys count where they stand alone, in any order. But a key must be
a text even where it is not known, and not every key that can be written is one.

* **`ofText_document`** — a document is read as the configuration that its members give;
* **`not_repeats_of_given`** — members that repeat a known key give none;
* **`given_congr`** — a password is the same whether it is written as a list or as an object;
* **`partial_documents`** — all of this, for every document;
* **`unpaired_key_refused`** — a document that is refused for an unknown key.
-/
import RecordRules.Proofs.Config.Documents

namespace RecordRules.Config

open Json Document

variable {text : String} {members before after : List Member} {m m' : Member} {c : Config}

theorem ofText_document (h : IsDocument (form.Holds members) text) :
    ofText text = .ok c ↔ (∀ m ∈ members, m.HasText) ∧ form.Given members c :=
  realises.readText_document h

/-! ### Passwords -/

/-- A policy that is written as a group is the one that its members give. -/
theorem isWritten_password_iff {inner : List Member} {v : List Char}
    (h : Password.Policy.form.Holds inner v) {password : Option Password.Policy} :
    Setting.IsWritten .password v password ↔
      ∃ p, password = some p ∧ (∀ m ∈ inner, m.HasText) ∧ Password.Policy.form.Given inner p := by
  cases password with
  | none =>
    refine iff_of_false ?_ nofun
    rintro rfl
    exact not_holds_null inner h
  | some p =>
    show Password.Policy.form.IsGroup v p ↔ _
    rw [Password.Policy.realises.isGroup_iff h]
    simp

/-- Members that are admitted give a password. -/
theorem exists_isWritten_password {inner : List Member} {v : List Char}
    (h : Password.Policy.form.Holds inner v) (htexts : ∀ m ∈ inner, m.HasText)
    (hadmits : Password.Policy.form.Admits inner) :
    ∃ password, Setting.IsWritten .password v password := by
  obtain ⟨p, hp⟩ := Form.exists_given_iff.2 hadmits
  exact ⟨some p, (isWritten_password_iff h).2 ⟨p, rfl, htexts, hp⟩⟩

theorem not_repeats_of_given (h : form.Given members c) : ¬ Repeats members := by
  rintro (⟨s, hs⟩ | ⟨m, hm, hkey, inner, hinner, s, hs⟩)
  · exact (exists_gives_iff.1 ⟨_, h s⟩).1 hs
  · have hwritten := gives_of_mem (h .password) hm hkey
    obtain ⟨p, -, -, hp⟩ := (isWritten_password_iff (.object hinner)).1 hwritten
    exact (exists_gives_iff.1 ⟨_, hp s⟩).1 hs

/-- Two members with the key of the password and with values that are written forms of the same
policies are as good as one another. -/
theorem given_congr (hsame : m.key = m'.key) (hkey : m.HasKey Setting.password.key)
    (hvalue : ∀ password,
      Setting.IsWritten .password m.value password ↔ Setting.IsWritten .password m'.value password) :
    form.Given (before ++ m :: after) c ↔ form.Given (before ++ m' :: after) c := by
  refine forall_congr' fun s => gives_congr hsame ?_
  intro hs password
  obtain rfl : s = Setting.password := form.key_inj (hasKey_unique hs hkey)
  exact hvalue password

/-! ### Whole documents -/

/-- Members whose keys are texts give a configuration if they are admitted, and inside a password
they give a policy. Members that repeat a known key give none. And it does not matter whether values
in their order, at the top level or in the password, are written as a list or with their keys. -/
theorem partial_documents :
    (∀ {text members}, IsDocument (form.Holds members) text → (∀ m ∈ members, m.HasText) →
      (form.Admits members → ∃ c, ofText text = .ok c) ∧
        ∀ c, ofText text = .ok c ↔ form.Given members c) ∧
    (∀ {v inner}, Password.Policy.form.Holds inner v → (∀ m ∈ inner, m.HasText) →
      (Password.Policy.form.Admits inner → ∃ password, Setting.IsWritten .password v password) ∧
        ∀ password, Setting.IsWritten .password v password ↔
          ∃ p, password = some p ∧ Password.Policy.form.Given inner p) ∧
    (∀ {text members}, IsDocument (form.Holds members) text → Repeats members →
      ∃ problem, ofText text = .error problem) ∧
    (∀ {list object values}, values.length ≤ form.all.length → IsDocument (IsList values) list →
      IsDocument (IsObject (form.inOrder values)) object →
        ∀ c, ofText list = .ok c ↔ ofText object = .ok c) ∧
    ∀ {list object before after m m' values},
      IsDocument (form.Holds (before ++ m :: after)) list →
      IsDocument (form.Holds (before ++ m' :: after)) object →
      m.key = m'.key → m.HasKey Setting.password.key →
      values.length ≤ Password.Policy.form.all.length → IsList values m.value →
      IsObject (Password.Policy.form.inOrder values) m'.value →
        ∀ c, ofText list = .ok c ↔ ofText object = .ok c := by
  refine ⟨?_, ?_, ?_, ?_, ?_⟩
  · intro text members htext htexts
    have hiff : ∀ c, ofText text = .ok c ↔ form.Given members c :=
      fun c => (ofText_document htext).trans (and_iff_right htexts)
    refine ⟨?_, hiff⟩
    intro hadmits
    obtain ⟨c, hc⟩ := Form.exists_given_iff.2 hadmits
    exact ⟨c, (hiff c).2 hc⟩
  · intro v inner hholds htexts
    refine ⟨exists_isWritten_password hholds htexts, ?_⟩
    intro password
    rw [isWritten_password_iff hholds]
    simp only [and_iff_right htexts]
  · intro text members htext hrepeats
    cases hread : ofText text with
    | ok c => exact absurd hrepeats (not_repeats_of_given ((ofText_document htext).1 hread).2)
    | error problem => exact ⟨problem, rfl⟩
  · intro list object values hlength hlist hobject c
    rw [ofText_document (hlist.imp fun _ h => ⟨.list h.1 hlength, h.2⟩),
      ofText_document (hobject.imp fun _ h => ⟨.object h.1, h.2⟩)]
  · intro list object before after m m' values hlist hobject hsame hkey hlength hvalues hvalues' c
    have hwritten : ∀ password, Setting.IsWritten .password m.value password ↔
        Setting.IsWritten .password m'.value password := by
      intro password
      rw [isWritten_password_iff (.list hvalues hlength), isWritten_password_iff (.object hvalues')]
    rw [ofText_document hlist, ofText_document hobject, given_congr hsame hkey hwritten]
    simp only [List.forall_mem_append, List.forall_mem_cons, Member.HasText, Member.HasKey, hsame]

/-- A tree with a policy that requires a longer password, and with an unknown key twice. -/
def mixed : List (String × Json) := [
  ("x", .list [.null, .object []]),
  ("password", .object [("note", .text "long"), ("min_length", .size 12)]),
  ("x", .bool true),
  ("unknown_rules", .text "reject")]

theorem given_mixed_password :
    Password.Policy.form.Given (written [("note", .text "long"), ("min_length", .size 12)])
      ⟨12, true, true, true, true⟩ := by
  rintro (_ | c)
  · exact gives_written (.size 12) (.tail _ (.head _)) (by decide) (isSize_write 12)
  · have hstandard : Password.Policy.standard.requires c = true := by cases c <;> rfl
    refine (gives_of_absent fun m hm hkey => ?_).2 (by cases c <;> rfl)
    have hmem := key_mem_of_mem_written hm hkey
    cases c <;> exact absurd hmem (by decide)

theorem partial_documents_mixed :
    (∃ c, ofText (Json.object mixed).render = .ok c) ∧
    ofText (Json.object mixed).render = .ok ⟨.parallel, .reject, some ⟨12, true, true, true, true⟩⟩ ∧
    (∃ problem, ofText (Json.object [("password",
      .object [("min_length", .size 1), ("min_length", .size 2)])]).render = .error problem) ∧
    (∀ c, ofText (Json.list [.text "sequential"]).render = .ok c ↔
      ofText (Json.object [("fan_out", .text "sequential")]).render = .ok c) ∧
    ∀ c, ofText (Json.object [("password", .list [.size 9])]).render = .ok c ↔
      ofText (Json.object [("password", .object [("min_length", .size 9)])]).render = .ok c := by
  obtain ⟨hgives, hpassword, hrepeats, hlists, hpasswords⟩ := partial_documents
  have hgiven : form.Given (written mixed) ⟨.parallel, .reject, some ⟨12, true, true, true, true⟩⟩ := by
    rintro (_ | _ | _)
    · refine .missing ?_
      intro m hm hkey
      exact absurd (key_mem_of_mem_written hm hkey) (by decide)
    · exact gives_written (.text "reject") (.tail _ (.tail _ (.tail _ (.head _)))) (by decide)
        (.plain (spells_escape "reject".toList))
    · refine gives_written _ (.tail _ (.head _)) (by decide) ?_
      exact ((hpassword (.object (isObject_render _)) fun m => hasText_of_mem_written).2 _).2
        ⟨_, rfl, given_mixed_password⟩
  obtain ⟨hexists, hiff⟩ := hgives (isDocument_render (.object (isObject_render mixed)))
    fun m => hasText_of_mem_written
  refine ⟨hexists (Form.exists_given_iff.1 ⟨_, hgiven⟩), (hiff _).2 hgiven, ?_, ?_, ?_⟩
  · refine hrepeats (isDocument_render (.object (isObject_render _))) (.inr ?_)
    exact ⟨_, List.mem_singleton_self _, hasKey_escape _ _, _, isObject_render _, .minLength,
      _, _, .refl _, hasKey_escape _ _, hasKey_escape _ _⟩
  · exact hlists (by decide) (isDocument_render (isList_render _))
      (isDocument_render (isObject_render [("fan_out", .text "sequential")]))
  · have hlist : form.Holds ([] ++ ⟨_, _⟩ :: [])
        (Json.object [("password", .list [.size 9])]).renderChars :=
      .object (isObject_render [("password", .list [.size 9])])
    have hobject : form.Holds ([] ++ ⟨_, _⟩ :: [])
        (Json.object [("password", .object [("min_length", .size 9)])]).renderChars :=
      .object (isObject_render [("password", .object [("min_length", .size 9)])])
    refine hpasswords (isDocument_render hlist) (isDocument_render hobject) rfl
      (hasKey_escape _ _) ?_ (isList_render [.size 9]) (isObject_render [("min_length", .size 9)])
    decide

/-- An object with a key that is no text, though it is well written, is no configuration. Nothing in
it is known, so it could have been the standard one. -/
theorem unpaired_key_refused :
    IsDocument (IsObject [⟨"\\ud800".toList, "null".toList⟩]) "\x7b\"\\ud800\":null\x7d" ∧
      form.Given [⟨"\\ud800".toList, "null".toList⟩] standard ∧
      ∀ c, ofText "\x7b\"\\ud800\":null\x7d" ≠ .ok c := by
  have hhex : hex4? 'd' '8' '0' '0' = some 0xD800 := by decide
  have hobject : IsObject [⟨"\\ud800".toList, "null".toList⟩]
      "\x7b\"\\ud800\":null\x7d".toList :=
    .members (.last (.mk (.code hhex .nil) .null (padded_self _) (padded_self _)))
  have hspells : ∀ t, ¬ Spells t ['\\', 'u', 'd', '8', '0', '0'] := by
    rintro t (_ | ⟨⟨-, hslash, -⟩, -⟩ | ⟨hletter, -⟩ | ⟨hex, hhigh, -, -⟩)
    · exact hslash rfl
    · cases hletter
    · obtain rfl := Option.some.inj (hhex.symm.trans hex)
      cases hhigh
  have hkey : ∀ key, ¬ Member.HasKey ⟨"\\ud800".toList, "null".toList⟩ key :=
    fun key => hspells key.toList
  refine ⟨⟨_, hobject, padded_self _⟩, ?_, ?_⟩
  · intro s
    refine .missing ?_
    rintro m hm
    obtain rfl := List.mem_singleton.1 hm
    exact hkey _
  · intro c hc
    have htexts := ((ofText_document ⟨_, .object hobject, padded_self _⟩).1 hc).1
    obtain ⟨key, h⟩ := htexts _ (List.mem_singleton_self _)
    exact hkey key h

end RecordRules.Config
