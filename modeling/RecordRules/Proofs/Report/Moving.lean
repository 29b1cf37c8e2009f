/-
Moving reports into fields is an action.

A report that is moved into one field after another is moved once, into the path of all their
names. The path of a failure that had none is then the field's own, and every other path goes on
behind a dot. So no move takes two paths to one, whatever the names are: they may be empty or have
dots.

* **`Failure.joinPath_eq_iff`**, **`Failure.joinPath_eq_self_iff`** — the path inside a field tells
  the path before;
* **`Report.under_eq_within`** — any number of moves, from the inside out, are one move;
* **`Report.atPath_within`** — a path behind the field's name finds what the rest of it found
  before;
* **`Report.within_is_action`** — all of this, with what a move keeps.
-/
import Mathlib.Data.List.Forall2
import RecordRules.Proofs.Pass.Enumeration

namespace RecordRules

/-! ### Paths inside a field -/

namespace Failure

variable {parent path : String} {field : Option String}

theorem self_ne_behind (parent path : String) : parent ≠ parent ++ "." ++ path := by
  intro h
  have hlength := congrArg String.length h
  have hdot : ".".length = 1 := rfl
  simp only [String.length_append] at hlength
  omega

/-- What is put behind a name and a dot can be read off again. -/
theorem joinPath_eq_iff : joinPath parent field = parent ++ "." ++ path ↔ field = some path := by
  cases field with
  | none => exact iff_of_false (self_ne_behind parent path) (by simp)
  | some other => simp [joinPath, String.append_right_inj]

theorem joinPath_eq_self_iff : joinPath parent field = parent ↔ field = none := by
  cases field with
  | none => simp [joinPath]
  | some path => exact iff_of_false (self_ne_behind parent path).symm (by simp)

end Failure

namespace Report

variable (a b : Report) (p q path : String)

/-! ### Moves one after another -/

/-- A report moved into fields, from the innermost, which is the last one, to the outermost. -/
def under (around : List String) (r : Report) : Report :=
  around.foldr (fun name r => r.within name) r

theorem failures_under (around : List String) :
    (a.under around).failures = a.failures.map (Failure.under around) := by
  induction around with
  | nil => exact (List.map_id _).symm
  | cons outer around ih =>
    show (a.under around).failures.map (·.within outer) = _
    rw [ih, List.map_map]
    rfl

theorem under_eq_within (around : List String) :
    a.under (around ++ [p]) = a.within (dotted (around ++ [p])) := by
  ext1
  rw [failures_under, failures_within]
  exact List.map_congr_left fun f _ => f.under_eq_within around p

/-! ### What a move keeps -/

theorem forall₂_within :
    List.Forall₂ (fun f g => g.code = f.code ∧ g.message = f.message ∧ g.params = f.params)
      a.failures (a.within p).failures := by
  rw [failures_within, List.forall₂_map_right_iff]
  exact List.forall₂_same.2 fun f _ => ⟨rfl, rfl, rfl⟩

/-! ### Looking up paths after a move -/

/-- If a move takes failures of one field only to a path, the path finds these. -/
theorem atPath_within_of_iff {path : String} {before : Option String}
    (h : ∀ field, Failure.joinPath p field = path ↔ field = before) :
    (a.within p).atPath path = (a.failures.filter (·.field == before)).map (·.within p) := by
  rw [atPath, failures_within, List.filter_map]
  congr 1
  refine List.filter_congr ?_
  intro f _
  rw [Bool.eq_iff_iff]
  simp [h]

theorem atPath_within :
    (a.within p).atPath (p ++ "." ++ path) = (a.atPath path).map (·.within p) :=
  a.atPath_within_of_iff p fun _ => Failure.joinPath_eq_iff

theorem atPath_within_self :
    (a.within p).atPath p = (a.failures.filter (·.field == none)).map (·.within p) :=
  a.atPath_within_of_iff p fun _ => Failure.joinPath_eq_self_iff

/-- **Moving reports into fields is an action.** Moving into a field and then into another is moving
once, into both names with a dot between them; and so are any number of moves. Reports can be
appended before a move or after it. A move keeps the failures, in their order, with their codes,
messages and parameters. After it, a path behind the field's name and a dot finds what the rest of
the path found before, and the name itself finds what had no path. -/
theorem within_is_action :
    (a.within p).within q = a.within (q ++ "." ++ p) ∧
      (∀ around, a.under (around ++ [p]) = a.within (dotted (around ++ [p]))) ∧
      (a ++ b).within p = a.within p ++ b.within p ∧
      (a.within p).size = a.size ∧
      List.Forall₂ (fun f g => g.code = f.code ∧ g.message = f.message ∧ g.params = f.params)
        a.failures (a.within p).failures ∧
      (a.within p).atPath (p ++ "." ++ path) = (a.atPath path).map (·.within p) ∧
      (a.within p).atPath p = (a.failures.filter (·.field == none)).map (·.within p) := by
  refine ⟨a.within_within p q, a.under_eq_within p, a.within_append b p, ?_, a.forall₂_within p,
    a.atPath_within p path, a.atPath_within_self p⟩
  exact List.length_map _

end Report

end RecordRules
