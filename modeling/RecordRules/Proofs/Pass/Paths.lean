/-
Field paths identify fields.

The path of a field is its names joined by dots. Where no name has a dot, the names can be read off
the path again, empty ones too; and where no two fields of one record have the same name, the names
lead to one field only.

* **`dotted_inj`** — names without dots are those of their path;
* **`Value.prefix_of_mem_visits`** — the visits below a field stand under its names;
* **`Value.nodup_names`** — no two visits have the same names;
* **`Report.atPath_ofList`** — of the failures of some visits with different paths, each path finds
  those of its visit;
* **`Validator.atPath_validate`** — so each path finds the failures of its own field, in the order
  of the field's rules, and a text that is no path finds none.
-/
import Mathlib.Data.List.Nodup
import RecordRules.Proofs.Pass.Enumeration

namespace RecordRules

open Text

/-! ### Names and paths -/

/-- Names that identify fields: at every visited level, no two fields have the same name, and no
name has a dot. Empty names are as good as others. -/
inductive Record.NamesApart : Record → Prop where
  | intro {r : Record} (nodup : (r.fields.map Field.name).Nodup)
      (no_dot : ∀ f ∈ r.fields, '.' ∉ f.name.toList)
      (inside : ∀ f ∈ r.fields, ∀ inner, f.value = .record inner → NamesApart inner) :
      NamesApart r

/-- The pieces of a path are its names, if these have no dots. -/
theorem pieces_dotted {names : List String} (hne : names ≠ [])
    (h : ∀ name ∈ names, '.' ∉ name.toList) :
    pieces '.' (dotted names).toList = names.map String.toList := by
  have hjoin : (dotted names).toList = ['.'].intercalate (names.map String.toList) :=
    String.toList_intercalate
  rw [hjoin]
  refine pieces_intercalate (by simpa using hne) ?_
  intro piece hpiece
  obtain ⟨name, hname, rfl⟩ := List.mem_map.1 hpiece
  exact h name hname

theorem dotted_inj {names names' : List String} (hne : names ≠ []) (hne' : names' ≠ [])
    (h : ∀ name ∈ names, '.' ∉ name.toList) (h' : ∀ name ∈ names', '.' ∉ name.toList)
    (hpath : dotted names = dotted names') : names = names' := by
  have hpieces : names.map String.toList = names'.map String.toList := by
    rw [← pieces_dotted hne h, ← pieces_dotted hne' h', hpath]
  exact (List.map_inj_right fun _ _ => String.toList_inj.1).1 hpieces

/-! ### Visits under the names of their field -/

theorem Field.mem_visits {around : List String} {f : Field} {visit : Visit} :
    visit ∈ f.visits around
      ↔ visit = ⟨around, f⟩ ∨ visit ∈ f.value.visits (around ++ [f.name]) := by
  rw [Field.visits_eq, List.mem_cons]

theorem Value.prefix_of_mem_visits (v : Value) : ∀ (around : List String) {visit : Visit},
    visit ∈ v.visits around → around <+: visit.around := by
  induction v using Value.induction with
  | record r ih =>
    intro around visit hvisit
    rw [Value.visits_record, List.mem_flatMap] at hvisit
    obtain ⟨f, hf, hvisit⟩ := hvisit
    rcases Field.mem_visits.1 hvisit with rfl | hvisit
    · exact List.prefix_refl around
    · exact (List.prefix_append around [f.name]).trans (ih f hf _ hvisit)
  | text | int | uint | float | bool | sequence | mapping | absent | present =>
    intro around visit hvisit
    cases hvisit

/-- All visits of a field stand under the names down to it. -/
theorem Field.prefix_of_mem_visits {around : List String} {f : Field} {visit : Visit}
    (h : visit ∈ f.visits around) : around ++ [f.name] <+: visit.names := by
  rcases Field.mem_visits.1 h with rfl | h
  · exact List.prefix_refl _
  · exact (f.value.prefix_of_mem_visits _ h).trans (List.prefix_append _ _)

/-- Fields with different names have no visit with the same names. -/
theorem Field.disjoint_names {f g : Field} (around : List String) (hname : f.name ≠ g.name) :
    List.Disjoint ((f.visits around).map Visit.names) ((g.visits around).map Visit.names) := by
  intro names hf hg
  obtain ⟨visit, hvisit, rfl⟩ := List.mem_map.1 hf
  obtain ⟨visit', hvisit', hnames⟩ := List.mem_map.1 hg
  have hprefix := Field.prefix_of_mem_visits hvisit
  have hprefix' := Field.prefix_of_mem_visits hvisit'
  rw [hnames] at hprefix'
  have heq : around ++ [f.name] = around ++ [g.name] :=
    (List.prefix_of_prefix_length_le hprefix hprefix' (by simp)).eq_of_length (by simp)
  exact hname (by simpa using heq)

/-- The visits below a field have more names than the field. -/
theorem Field.names_not_mem (around : List String) (f : Field) :
    around ++ [f.name] ∉ (f.value.visits (around ++ [f.name])).map Visit.names := by
  intro hmem
  obtain ⟨visit, hvisit, hnames⟩ := List.mem_map.1 hmem
  have hlength := (f.value.prefix_of_mem_visits _ hvisit).length_le
  have hnamesLength := congrArg List.length hnames
  simp only [Visit.names, List.length_append, List.length_singleton] at hnamesLength hlength
  omega

/-! ### One visit for each path -/

theorem Value.nodup_names (v : Value) : ∀ around : List String,
    (∀ r, v = .record r → r.NamesApart) → ((v.visits around).map Visit.names).Nodup := by
  induction v using Value.induction with
  | record r ih =>
    intro around h
    obtain ⟨hnodup, -, hinside⟩ := h r rfl
    rw [Value.visits_record, List.map_flatMap, List.nodup_flatMap]
    refine ⟨?_, ?_⟩
    · intro f hf
      rw [Field.visits_eq, List.map_cons, List.nodup_cons]
      exact ⟨Field.names_not_mem around f, ih f hf _ (hinside f hf)⟩
    · refine (List.pairwise_map.1 hnodup).imp ?_
      intro f g hname
      exact Field.disjoint_names around hname
  | text | int | uint | float | bool | sequence | mapping | absent | present =>
    intro around _
    exact List.nodup_nil

theorem Value.no_dot_of_mem_visits (v : Value) : ∀ (around : List String) {visit : Visit},
    (∀ r, v = .record r → r.NamesApart) → (∀ name ∈ around, '.' ∉ name.toList) →
      visit ∈ v.visits around → ∀ name ∈ visit.names, '.' ∉ name.toList := by
  induction v using Value.induction with
  | record r ih =>
    intro around visit h haround hvisit
    obtain ⟨-, hdot, hinside⟩ := h r rfl
    rw [Value.visits_record, List.mem_flatMap] at hvisit
    obtain ⟨f, hf, hvisit⟩ := hvisit
    have hnames : ∀ name ∈ around ++ [f.name], '.' ∉ name.toList := by
      intro name hname
      rcases List.mem_append.1 hname with hname | hname
      · exact haround name hname
      · rw [List.mem_singleton.1 hname]
        exact hdot f hf
    rcases Field.mem_visits.1 hvisit with rfl | hvisit
    · exact hnames
    · exact ih f hf _ (hinside f hf) hnames hvisit
  | text | int | uint | float | bool | sequence | mapping | absent | present =>
    intro around visit _ _ hvisit
    cases hvisit

/-- No two visits have the same path. -/
theorem Record.nodup_paths {r : Record} (h : r.NamesApart) :
    ((r.visits []).map Visit.path).Nodup := by
  have hrecord : ∀ r', Value.record r = .record r' → r'.NamesApart := by
    rintro r' ⟨⟩
    exact h
  have hdot : ∀ visit ∈ r.visits [], ∀ name ∈ visit.names, '.' ∉ name.toList := fun visit hvisit =>
    (Value.record r).no_dot_of_mem_visits [] hrecord (by simp) hvisit
  have hnames : ((r.visits []).map Visit.names).Nodup := (Value.record r).nodup_names [] hrecord
  have hpath : (r.visits []).map Visit.path = ((r.visits []).map Visit.names).map dotted := by
    rw [List.map_map]
    rfl
  rw [hpath]
  refine hnames.map_on ?_
  intro names hmem names' hmem' heq
  obtain ⟨visit, hvisit, rfl⟩ := List.mem_map.1 hmem
  obtain ⟨visit', hvisit', rfl⟩ := List.mem_map.1 hmem'
  exact dotted_inj (by simp [Visit.names]) (by simp [Visit.names]) (hdot visit hvisit)
    (hdot visit' hvisit') heq

/-! ### Failures by path -/

variable {s : Settings}

theorem Visit.field_of_mem_failures {visit : Visit} {failure : Failure}
    (h : failure ∈ visit.failures s) : failure.field = some visit.path := by
  obtain ⟨call, -, finding, -, rfl⟩ := Visit.mem_failures_iff.1 h
  rfl

/-- A path finds all failures of the visit that has it. -/
theorem Visit.atPath_failures (visit : Visit) :
    (Report.ofList (visit.failures s)).atPath visit.path = visit.failures s := by
  refine List.filter_eq_self.2 ?_
  intro failure hfailure
  rw [Visit.field_of_mem_failures hfailure]
  exact beq_self_eq_true _

namespace Report

theorem atPath_append (a b : Report) (path : String) :
    (a ++ b).atPath path = a.atPath path ++ b.atPath path := List.filter_append ..

/-- A path that no visit has finds none of the visits' failures. -/
theorem atPath_of_forall_ne {visits : List Visit} {path : String}
    (h : ∀ visit ∈ visits, visit.path ≠ path) :
    (ofList (visits.flatMap (Visit.failures s))).atPath path = [] := by
  refine List.filter_eq_nil_iff.2 ?_
  intro failure hfailure
  obtain ⟨visit, hvisit, hfailure⟩ := List.mem_flatMap.1 hfailure
  rw [Visit.field_of_mem_failures hfailure]
  simpa using h visit hvisit

/-- Of the failures of visits with different paths, each path finds those of its visit. -/
theorem atPath_ofList {visits : List Visit} (hnodup : (visits.map Visit.path).Nodup)
    {visit : Visit} (hvisit : visit ∈ visits) :
    (ofList (visits.flatMap (Visit.failures s))).atPath visit.path = visit.failures s := by
  obtain ⟨before, after, rfl⟩ := List.append_of_mem hvisit
  rw [List.map_append, List.map_cons, List.nodup_middle, List.nodup_cons] at hnodup
  have hother : ∀ other ∈ before ++ after, other.path ≠ visit.path := by
    intro other hmem hpath
    refine hnodup.1 ?_
    rw [← List.map_append, ← hpath]
    exact List.mem_map_of_mem hmem
  have hbefore : (ofList (before.flatMap (Visit.failures s))).atPath visit.path = [] :=
    atPath_of_forall_ne fun other hmem => hother other (List.mem_append_left _ hmem)
  have hafter : (ofList (after.flatMap (Visit.failures s))).atPath visit.path = [] :=
    atPath_of_forall_ne fun other hmem => hother other (List.mem_append_right _ hmem)
  have hsplit : ofList ((before ++ visit :: after).flatMap (Visit.failures s))
      = ofList (before.flatMap (Visit.failures s)) ++ ofList (visit.failures s)
        ++ ofList (after.flatMap (Visit.failures s)) := by
    ext1
    simp [ofList]
  rw [hsplit, atPath_append, atPath_append, hbefore, hafter, visit.atPath_failures]
  simp

end Report

/-! ### Validations -/

/-- **Field paths identify fields.** Where names identify fields, the path of a visited field finds
in what a validation reports exactly the failures of that field's own calls, in their order, and a
text that is no field's path finds none. -/
theorem Validator.atPath_validate (v : Validator) {r : Record} (h : r.NamesApart) :
    (∀ visit ∈ r.visits [],
        (v.validate r).report.atPath visit.path = visit.failures v.settings) ∧
      ∀ path, (∀ visit ∈ r.visits [], visit.path ≠ path) →
        (v.validate r).report.atPath path = [] := by
  have hreport : (v.validate r).report
      = .ofList ((r.visits []).flatMap (Visit.failures v.settings)) := by
    rw [Validator.report_validate, Validator.report_walk]
    rfl
  rw [hreport]
  refine ⟨?_, ?_⟩
  · intro visit hvisit
    exact Report.atPath_ofList (Record.nodup_paths h) hvisit
  · intro path hpath
    exact Report.atPath_of_forall_ne hpath

/-- Empty names make paths of their own: `a.` is the field without a name in `a`, and neither `.a`
nor `a`. -/
theorem Validator.atPath_validate_unnamed :
    let missing : Value := .bool false
    let inside : Record := ⟨"Inside", [⟨"", missing, "required", none⟩]⟩
    let beside : Record := ⟨"Beside", [⟨"a", missing, "required", none⟩]⟩
    let outside : Record :=
      ⟨"Outside", [⟨"a", .record inside, "required", none⟩, ⟨"", .record beside, "", none⟩]⟩
    outside.NamesApart ∧
      (Validator.standard.validate outside).report.atPath "a."
        = [(Violation.missing .bool).toFailure.atField "a."] ∧
      (Validator.standard.validate outside).report.atPath "b" = [] := by
  intro missing inside beside outside
  have hinside : inside.NamesApart := .intro (by decide) (by decide) (by simp [inside, missing])
  have hbeside : beside.NamesApart := .intro (by decide) (by decide) (by simp [beside, missing])
  have houtside : outside.NamesApart := by
    refine .intro (by decide) (by decide) ?_
    intro f hf inner hinner
    simp only [outside, List.mem_cons, List.not_mem_nil, or_false] at hf
    rcases hf with rfl | rfl
    · obtain rfl : inside = inner := Value.record.inj hinner
      exact hinside
    · obtain rfl : beside = inner := Value.record.inj hinner
      exact hbeside
  have h := Validator.atPath_validate .standard houtside
  refine ⟨houtside, ?_, h.2 "b" ?_⟩
  · have hvisit : (⟨["a"], ⟨"", missing, "required", none⟩⟩ : Visit) ∈ outside.visits [] := by
      simp [outside, inside, Record.visits, Field.visitsOfAll, Field.visits, Value.visits]
    have hpath : Visit.path ⟨["a"], ⟨"", missing, "required", none⟩⟩ = "a." := by decide +kernel
    have hfound := h.1 _ hvisit
    rw [hpath] at hfound
    exact hfound.trans (by decide +kernel)
  · have hpaths : (outside.visits []).map Visit.path = ["a", "a.", "", ".a"] := by decide +kernel
    intro visit hvisit hpath
    have hmem := List.mem_map_of_mem (f := Visit.path) hvisit
    rw [hpaths, hpath] at hmem
    exact absurd hmem (by decide)

end RecordRules
