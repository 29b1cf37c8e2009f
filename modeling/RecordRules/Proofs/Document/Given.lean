/-
What members give, one member at a time.

A reader takes the members as they come, and remembers the keys that it has seen. What it has then is
said here of any members that are still to come: a key that was seen does not come again, and each
setting keeps its value or gets the only one that comes.

* **`gives_cons_iff`**, **`gives_cons_of_not`** — a member that has the key, and one that has not;
* **`Form.givenFrom_cons_iff`** — one member, and the rest;
* **`Form.exists_given_iff`** — members give a group if and only if they are admitted.
-/
import RecordRules.Document.Form
import RecordRules.Proofs.Json.Writing

namespace RecordRules.Document

open Json

variable {key : String} {IsWritten : List Char → β → Prop} {standard x : β} {m : Member}
  {members : List Member}

/-! ### What is given for one key -/

theorem gives_of_absent (absent : ∀ m ∈ members, ¬ m.HasKey key) :
    Gives key IsWritten standard members x ↔ x = standard := by
  constructor
  · rintro (_ | ⟨rfl, hasKey, -, -⟩)
    · rfl
    · exact absurd hasKey (absent _ (by simp))
  · rintro rfl
    exact .missing absent

theorem gives_nil_iff : Gives key IsWritten standard [] x ↔ x = standard :=
  gives_of_absent (by simp)

theorem gives_cons_iff (h : m.HasKey key) :
    Gives key IsWritten standard (m :: members) x ↔
      IsWritten m.value x ∧ ∀ m' ∈ members, ¬ m'.HasKey key := by
  constructor
  · rintro (absent | @⟨before, after, m', x, split, hasKey, alone, written⟩)
    · exact absurd h (absent m (by simp))
    · cases before with
      | nil =>
        obtain ⟨rfl, rfl⟩ := List.cons.inj split
        exact ⟨written, alone⟩
      | cons first before =>
        obtain ⟨rfl, -⟩ := List.cons.inj split
        exact absurd h (alone m (by simp))
  · rintro ⟨written, alone⟩
    exact .once (show m :: members = [] ++ m :: members from rfl) h alone written

theorem gives_cons_of_not (h : ¬ m.HasKey key) :
    Gives key IsWritten standard (m :: members) x ↔ Gives key IsWritten standard members x := by
  constructor
  · rintro (absent | @⟨before, after, m', x, split, hasKey, alone, written⟩)
    · exact .missing fun m' hm' => absent m' (by simp [hm'])
    · cases before with
      | nil =>
        obtain ⟨rfl, rfl⟩ := List.cons.inj split
        exact absurd hasKey h
      | cons first before =>
        obtain ⟨rfl, rfl⟩ := List.cons.inj split
        exact .once rfl hasKey (fun m' hm' => alone m' (List.mem_cons_of_mem _ hm')) written
  · rintro (absent | @⟨before, after, m', x, rfl, hasKey, alone, written⟩)
    · exact .missing (by simpa [h] using absent)
    · exact .once (List.cons_append ..).symm hasKey (by simpa [h] using alone) written

/-- The value that is given for a key is that of any member that has the key. -/
theorem gives_of_mem (h : Gives key IsWritten standard members x) (hm : m ∈ members)
    (hkey : m.HasKey key) : IsWritten m.value x := by
  obtain absent | ⟨rfl, -, alone, written⟩ := h
  · exact absurd hkey (absent m hm)
  · rw [List.mem_append, List.mem_cons] at hm
    rcases hm with hm | rfl | hm
    · exact absurd hkey (alone m (by simp [hm]))
    · exact written
    · exact absurd hkey (alone m (by simp [hm]))

/-- Two members with one key and with values that are written forms of the same are as good as one
another. -/
theorem gives_congr {before after : List Member} {m' : Member} (hsame : m.key = m'.key)
    (hvalue : m.HasKey key → ∀ x, IsWritten m.value x ↔ IsWritten m'.value x) :
    Gives key IsWritten standard (before ++ m :: after) x ↔
      Gives key IsWritten standard (before ++ m' :: after) x := by
  have hkey : m.HasKey key ↔ m'.HasKey key := by rw [Member.HasKey, Member.HasKey, hsame]
  induction before with
  | nil =>
    by_cases h : m.HasKey key
    · rw [List.nil_append, List.nil_append, gives_cons_iff h, gives_cons_iff (hkey.1 h), hvalue h]
    · rw [List.nil_append, List.nil_append, gives_cons_of_not h, gives_cons_of_not (mt hkey.2 h)]
  | cons first before ih =>
    rw [List.cons_append, List.cons_append]
    by_cases h : first.HasKey key
    · rw [gives_cons_iff h, gives_cons_iff h]
      simp only [List.forall_mem_append, List.forall_mem_cons, hkey]
    · rw [gives_cons_of_not h, gives_cons_of_not h]
      exact ih

/-- A tree gives the value of a key that occurs once in it. -/
theorem gives_written {tree : List (String × Json)} (value : Json) (hmem : (key, value) ∈ tree)
    (honce : (tree.map Prod.fst).count key = 1) (hwritten : IsWritten value.renderChars x) :
    Gives key IsWritten standard (written tree) x := by
  obtain ⟨before, after, rfl⟩ := List.append_of_mem hmem
  have hnone : ((before ++ after).map Prod.fst).count key = 0 := by
    simp only [List.map_append, List.map_cons, List.count_append, List.count_cons_self] at honce ⊢
    omega
  rw [written, List.map_append, List.map_cons]
  refine .once rfl (hasKey_escape _ _) ?_ hwritten
  rw [← List.map_append]
  exact fun m hm hkey => List.count_eq_zero.1 hnone (key_mem_of_mem_written hm hkey)

theorem not_repeated_iff :
    ¬ Repeated key members ↔ members.Pairwise fun m m' => ¬ (m.HasKey key ∧ m'.HasKey key) := by
  rw [List.pairwise_iff_forall_sublist, Repeated]
  constructor
  · intro h m m' hsub hboth
    exact h ⟨m, m', hsub, hboth⟩
  · rintro h ⟨m, m', hsub, hboth⟩
    exact h hsub hboth

/-- A value is given unless the key is repeated or its value cannot be read. -/
theorem exists_gives_iff :
    (∃ x, Gives key IsWritten standard members x) ↔
      ¬ Repeated key members ∧ ∀ m ∈ members, m.HasKey key → ∃ x, IsWritten m.value x := by
  rw [not_repeated_iff]
  induction members with
  | nil => simp [gives_nil_iff]
  | cons m members ih =>
    rw [List.pairwise_cons]
    by_cases h : m.HasKey key
    · simp only [gives_cons_iff h, h, true_and, List.forall_mem_cons, forall_const]
      constructor
      · rintro ⟨x, written, alone⟩
        have hpair : members.Pairwise fun m m' => ¬ (m.HasKey key ∧ m'.HasKey key) :=
          List.pairwise_of_forall_mem_list fun m hm m' _ hboth => alone m hm hboth.1
        exact ⟨⟨alone, hpair⟩, ⟨x, written⟩, fun m' hm' hkey => absurd hkey (alone m' hm')⟩
      · rintro ⟨⟨alone, -⟩, ⟨x, written⟩, -⟩
        exact ⟨x, written, alone⟩
    · simp only [gives_cons_of_not h, ih, h, false_and, not_false_eq_true, implies_true, true_and,
        List.forall_mem_cons, false_implies]

namespace Form

variable {form : Form α} {seen : List String} {group x y : α} {k : String}

theorem ext_value (form : Form α) (h : ∀ s, form.value x s = form.value y s) : x = y := by
  rw [← form.ofValues_value x, ← form.ofValues_value y, funext h]

/-- Some members give a group if and only if they are admitted. -/
theorem exists_given_iff : (∃ x, form.Given members x) ↔ form.Admits members := by
  constructor
  · rintro ⟨x, hx⟩ s
    exact exists_gives_iff.1 ⟨_, hx s⟩
  · intro h
    have hgives : ∀ s, ∃ v, Gives (form.key s) (form.IsWritten s) (form.value form.standard s)
        members v := fun s => exists_gives_iff.2 (h s)
    refine ⟨form.ofValues fun s => (hgives s).choose, ?_⟩
    intro s
    rw [form.value_ofValues]
    exact (hgives s).choose_spec

/-! ### One member after another -/

/-- Whether one group differs from another in no more than one setting, which has a new value. -/
def Changes (form : Form α) (s : form.Setting) (v : form.Value s) (before after : α) : Prop :=
  form.value after s = v ∧ ∀ t, t ≠ s → form.value after t = form.value before t

theorem Changes.unique {s : form.Setting} {v : form.Value s} (hx : form.Changes s v group x)
    (hy : form.Changes s v group y) : x = y := by
  refine form.ext_value ?_
  intro t
  by_cases ht : t = s
  · subst ht
    rw [hx.1, hy.1]
  · rw [hx.2 t ht, hy.2 t ht]

/-- The group that a group becomes by members still to come, after some keys were seen. -/
def GivenFrom (form : Form α) (seen : List String) (group : α) (members : List Member) (x : α) :
    Prop :=
  ∀ s, (form.key s ∈ seen → ∀ m ∈ members, ¬ m.HasKey (form.key s)) ∧
    Gives (form.key s) (form.IsWritten s) (form.value group s) members (form.value x s)

theorem givenFrom_standard : form.GivenFrom [] form.standard members x ↔ form.Given members x := by
  simp [GivenFrom, Given]

theorem givenFrom_nil : form.GivenFrom seen group [] x ↔ x = group := by
  simp only [GivenFrom, gives_nil_iff, List.not_mem_nil, false_implies, implies_true, true_and]
  exact ⟨form.ext_value, fun h s => by rw [h]⟩

/-- A group can be changed in any one setting. -/
theorem exists_changes (form : Form α) (s : form.Setting) (v : form.Value s) (group : α) :
    ∃ group', form.Changes s v group group' := by
  classical
  refine ⟨form.ofValues fun t => if h : t = s then h ▸ v else form.value group t, ?_⟩
  rw [Changes, form.value_ofValues]
  exact ⟨by simp, fun t ht => by simp [ht]⟩

/-- A member with an unknown key gives nothing. -/
theorem givenFrom_cons_unknown (h : m.HasKey k) (hk : ∀ s, form.key s ≠ k) :
    form.GivenFrom seen group (m :: members) x ↔ form.GivenFrom (k :: seen) group members x := by
  have hnot : ∀ s, ¬ m.HasKey (form.key s) := fun s => not_hasKey h (hk s).symm
  simp only [GivenFrom, gives_cons_of_not (hnot _), List.forall_mem_cons, hnot, not_false_eq_true,
    true_and]
  simp only [List.mem_cons, hk, false_or]

/-- A member with a known key that was not seen gives the setting its value. -/
theorem givenFrom_cons_known {s : form.Setting} (h : m.HasKey (form.key s)) :
    form.GivenFrom seen group (m :: members) x ↔
      form.key s ∉ seen ∧ ∃ v group', form.IsWritten s m.value v ∧ form.Changes s v group group' ∧
        form.GivenFrom (form.key s :: seen) group' members x := by
  have hnot : ∀ t, t ≠ s → ¬ m.HasKey (form.key t) :=
    fun t ht hkey => ht (form.key_inj (hasKey_unique hkey h))
  constructor
  · intro hgiven
    obtain ⟨hseen, hs⟩ := hgiven s
    obtain ⟨written, alone⟩ := (gives_cons_iff h).1 hs
    obtain ⟨group', hchanged, hkept⟩ := form.exists_changes s (form.value x s) group
    refine ⟨fun hmem => hseen hmem m (by simp) h, _, group', written, ⟨hchanged, hkept⟩, ?_⟩
    intro t
    by_cases ht : t = s
    · subst ht
      rw [hchanged]
      exact ⟨fun _ => alone, .missing alone⟩
    · obtain ⟨hseen, ht'⟩ := hgiven t
      rw [gives_cons_of_not (hnot t ht), ← hkept t ht] at ht'
      refine ⟨?_, ht'⟩
      intro hmem m' hm'
      rw [List.mem_cons] at hmem
      exact hseen (hmem.resolve_left fun heq => ht (form.key_inj heq)) m' (by simp [hm'])
  · rintro ⟨hseen, v, group', written, ⟨hchanged, hkept⟩, hgiven⟩ t
    by_cases ht : t = s
    · subst ht
      obtain ⟨alone, hgives⟩ := hgiven t
      have alone := alone (by simp)
      rw [gives_of_absent alone, hchanged] at hgives
      rw [hgives]
      exact ⟨fun hmem => absurd hmem hseen, (gives_cons_iff h).2 ⟨written, alone⟩⟩
    · obtain ⟨hseen', hgives⟩ := hgiven t
      rw [hkept t ht] at hgives
      refine ⟨?_, (gives_cons_of_not (hnot t ht)).2 hgives⟩
      intro hmem
      rw [List.forall_mem_cons]
      exact ⟨hnot t ht, hseen' (by simp [hmem])⟩

/-- What becomes of the keys that were seen, and of a group, by one more member. Its key is a text.
Either no setting has it, or it was not seen before and its setting gets the member's value. -/
def Advances (form : Form α) (seen : List String) (group : α) (m : Member) (k : String)
    (group' : α) : Prop :=
  m.HasKey k ∧ ((∀ s, form.key s ≠ k) ∧ group' = group ∨
    ∃ s v, form.key s = k ∧ k ∉ seen ∧ form.IsWritten s m.value v ∧ form.Changes s v group group')

theorem advances_unknown_iff (h : m.HasKey k) (hk : ∀ s, form.key s ≠ k) :
    form.Advances seen group m k x ↔ x = group := by
  constructor
  · rintro ⟨-, ⟨-, hx⟩ | ⟨s, -, hs, -⟩⟩
    · exact hx
    · exact absurd hs (hk s)
  · exact fun hx => ⟨h, .inl ⟨hk, hx⟩⟩

theorem advances_known_iff {s : form.Setting} (h : m.HasKey (form.key s)) :
    form.Advances seen group m (form.key s) x ↔
      form.key s ∉ seen ∧ ∃ v, form.IsWritten s m.value v ∧ form.Changes s v group x := by
  constructor
  · rintro ⟨-, ⟨hk, -⟩ | ⟨t, v, ht, hseen, hwritten, hchanges⟩⟩
    · exact absurd rfl (hk s)
    · obtain rfl := form.key_inj ht
      exact ⟨hseen, v, hwritten, hchanges⟩
  · rintro ⟨hseen, v, hwritten, hchanges⟩
    exact ⟨h, .inr ⟨s, v, rfl, hseen, hwritten, hchanges⟩⟩

/-- One member, and the rest. -/
theorem givenFrom_cons_iff :
    ((∀ m' ∈ m :: members, m'.HasText) ∧ form.GivenFrom seen group (m :: members) x) ↔
      ∃ k group', form.Advances seen group m k group' ∧ (∀ m' ∈ members, m'.HasText) ∧
        form.GivenFrom (k :: seen) group' members x := by
  rw [List.forall_mem_cons]
  constructor
  · rintro ⟨⟨⟨k, hk⟩, htexts⟩, hgiven⟩
    by_cases hknown : ∃ s, form.key s = k
    · obtain ⟨s, rfl⟩ := hknown
      obtain ⟨hseen, v, group', hwritten, hchanges, hrest⟩ := (givenFrom_cons_known hk).1 hgiven
      exact ⟨_, group', (advances_known_iff hk).2 ⟨hseen, v, hwritten, hchanges⟩, htexts, hrest⟩
    · have hunknown : ∀ s, form.key s ≠ k := fun s hs => hknown ⟨s, hs⟩
      exact ⟨k, group, (advances_unknown_iff hk hunknown).2 rfl, htexts,
        (givenFrom_cons_unknown hk hunknown).1 hgiven⟩
  · rintro ⟨k, group', ⟨hk, ⟨hunknown, rfl⟩ | ⟨s, v, rfl, hseen, hwritten, hchanges⟩⟩, htexts, hrest⟩
    · exact ⟨⟨⟨k, hk⟩, htexts⟩, (givenFrom_cons_unknown hk hunknown).2 hrest⟩
    · exact ⟨⟨⟨_, hk⟩, htexts⟩,
        (givenFrom_cons_known hk).2 ⟨hseen, v, group', hwritten, hchanges, hrest⟩⟩

end Form

end RecordRules.Document
