/-
A stored configuration is read back as it was.

* **`Password.Policy.isGroup_render`** — a written policy is a group that gives that policy;
* **`Config.ofText_toText`** — every configuration is read back from its document;
* **`Config.reloading_changes_nothing`** — so it does not matter when, or how often, a configuration
  is stored while it is built.
-/
import Mathlib.Data.List.Nodup
import RecordRules.Proofs.Config.Documents

namespace RecordRules

open Json Document

/-! ### Written groups -/

/-- A group is given by members that write each of its settings. -/
theorem Document.Form.given_map {form : Form α} {x : α} {tree : form.Setting → Json}
    (h : ∀ s, form.IsWritten s (tree s).renderChars (form.value x s)) :
    form.Given (written (form.all.map fun s => (form.key s, tree s))) x := by
  intro s
  have hkeys : ((form.all.map fun s => (form.key s, tree s)).map Prod.fst).Nodup := by
    rw [List.map_map]
    exact form.nodup_all.map fun s t hst => form.key_inj hst
  have hmem := List.mem_map_of_mem (f := fun s => (form.key s, tree s)) (form.mem_all s)
  exact gives_written (tree s) hmem (List.count_eq_one_of_mem hkeys (List.mem_map_of_mem hmem)) (h s)

/-! ### Policies -/

/-- The tree of a setting of a policy. -/
def Password.Policy.tree (p : Policy) : Setting → Json
  | .minLength => .size p.minLength
  | .requires c => .bool (p.requires c)

theorem Password.Policy.toJson_eq (p : Policy) :
    p.toJson = .object (form.all.map fun s => (form.key s, p.tree s)) := rfl

/-- A written policy is a group that gives that policy. -/
theorem Password.Policy.isGroup_render (p : Policy) : form.IsGroup p.toJson.renderChars p := by
  rw [p.toJson_eq]
  refine ⟨_, .object (isObject_render _), fun m => hasText_of_mem_written, Form.given_map ?_⟩
  rintro (_ | c)
  · exact isSize_write p.minLength
  · show Json.renderChars (.bool (p.requires c)) = (if p.requires c then "true" else "false").toList
    cases p.requires c <;> rfl

/-! ### Configurations -/

namespace Config

/-- The tree of a setting of a configuration. -/
def tree (c : Config) : Setting → Json
  | .fanOut => .text c.fanOut.text
  | .unknownRules => .text c.unknownRules.text
  | .password =>
    match c.password with
    | some policy => policy.toJson
    | none => .null

theorem toJson_eq (c : Config) :
    c.toJson = .object (form.all.map fun s => (form.key s, c.tree s)) := rfl

theorem given_toJson (c : Config) :
    form.Given (written (form.all.map fun s => (form.key s, c.tree s))) c := by
  refine Form.given_map ?_
  rintro (_ | _ | _)
  · exact .plain (spells_escape _)
  · exact .plain (spells_escape _)
  · show IsNullOr _ _ c.password
    rw [tree]
    cases c.password with
    | none => rfl
    | some policy => exact policy.isGroup_render

/-- Every configuration is read back from its document. -/
theorem ofText_toText (c : Config) : ofText c.toText = .ok c := by
  rw [toText, toJson_eq]
  exact (realises.readText_document (isDocument_render (.object (isObject_render _)))).2
    ⟨fun m => hasText_of_mem_written, c.given_toJson⟩

/-- A reload is no step. -/
theorem act_eq (c : Config) (action : Action) :
    c.act action = .ok (c.build action.step?.toList) := by
  cases action with
  | build step => rfl
  | reload => exact c.ofText_toText

/-- **Reloading changes nothing.** A configuration's own document gives it back. So whatever a
configuration is built by, and however often it is stored in between, it is in the end the one that
the steps alone make. -/
theorem reloading_changes_nothing :
    (∀ c : Config, ofText c.toText = .ok c) ∧
      ∀ (c : Config) (actions : List Action),
        c.after actions = .ok (c.build (actions.filterMap Action.step?)) := by
  refine ⟨ofText_toText, ?_⟩
  intro c actions
  induction actions generalizing c with
  | nil => rfl
  | cons action actions ih =>
    rw [after, List.foldlM_cons, act_eq]
    show (c.build action.step?.toList).after actions = _
    rw [ih, List.filterMap_cons]
    cases action <;> rfl

end Config

end RecordRules
