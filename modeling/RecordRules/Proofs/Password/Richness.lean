/-
A richer password is never told an earlier requirement.

A password is at least as rich as another if every character occurs in it as often or more often, in
whatever order. It has then as many characters and one of every class that the other one has, so it
meets what the other one meets.

* **`Policy.Meets.of_enriches`** — a richer password meets every requirement that the other meets;
* **`Policy.rank_le_of_unmet?`** — so its first unmet requirement is no earlier one;
* **`Policy.enriching_is_no_worse`** — and that is what the check reports.
-/
import Mathlib.Data.List.Perm.Subperm
import RecordRules.Proofs.Password.Requirements

namespace RecordRules.Password

/-! ### Richness -/

/-- Whether every character occurs in `t` as often as in `s`, or more often. -/
def Enriches (t s : List Char) : Prop := ∀ c, s.count c ≤ t.count c

namespace Enriches

variable {s t u : List Char}

theorem trans (hut : Enriches u t) (hts : Enriches t s) : Enriches u s := by
  intro c
  exact Nat.le_trans (hts c) (hut c)

/-- The characters may be put into another order. -/
theorem of_perm (h : t.Perm s) : Enriches t s := by
  intro c
  exact Nat.le_of_eq (h.count_eq c).symm

/-- Characters may be inserted anywhere. -/
theorem of_sublist (h : s.Sublist t) : Enriches t s := by
  intro c
  exact h.count_le c

theorem length_le (h : Enriches t s) : s.length ≤ t.length := by
  have hsub : s.Subperm t := List.subperm_ext_iff.2 fun c _ => h c
  exact hsub.length_le

theorem mem (h : Enriches t s) {c : Char} (hc : c ∈ s) : c ∈ t := by
  have hpos : 0 < s.count c := List.count_pos_iff.2 hc
  exact List.count_pos_iff.1 (Nat.lt_of_lt_of_le hpos (h c))

end Enriches

namespace Policy

variable {p : Policy} {s t : List Char}

/-! ### Requirements -/

/-- A richer password meets every requirement that the other one meets. -/
theorem Meets.of_enriches (h : Enriches t s) {r : Setting} (hmet : p.Meets s r) : p.Meets t r := by
  cases r with
  | minLength => exact Nat.le_trans hmet h.length_le
  | requires c =>
    intro hrequires
    obtain ⟨x, hx, hclass⟩ := hmet hrequires
    exact ⟨x, h.mem hx, hclass⟩

/-- The first requirement that a richer password does not meet is no earlier one. -/
theorem rank_le_of_unmet? (h : Enriches t s) {a b : Setting} (ha : p.unmet? s = some a)
    (hb : p.unmet? t = some b) : a.rank ≤ b.rank := by
  obtain ⟨hunmet, earlier, later, hall, hmet⟩ := unmet?_eq_some_iff.1 ha
  obtain ⟨hunmet', -⟩ := unmet?_eq_some_iff.1 hb
  -- what is checked before `a` is met by both passwords, so `b` is not among it
  have ha' : a ∉ earlier := fun hmem => hunmet (hmet a hmem)
  have hb' : b ∉ earlier := fun hmem => hunmet' ((hmet b hmem).of_enriches h)
  rw [Setting.rank, Setting.rank, hall, List.idxOf_append_of_notMem ha',
    List.idxOf_append_of_notMem hb', List.idxOf_cons_self]
  exact Nat.le_add_right _ _

/-! ### Checks -/

theorem param?_complaint (p : Policy) (password : List Char) (s : Setting) :
    (p.complaint password s).param? "requirement" = some s.word := rfl

/-- **A richer password fares no worse.** Let every character occur in one password as often as in
another, or more often. If the other one passes, so does it; and if both are rejected, the
requirement that it is told is the one that the other is told, or one that is checked later. -/
theorem enriching_is_no_worse (p : Policy) {s t : String} (h : Enriches t.toList s.toList) :
    ((Rule.password p).failure? (.text s) = none → (Rule.password p).failure? (.text t) = none) ∧
      ∀ f ∈ (Rule.password p).failure? (.text s), ∀ g ∈ (Rule.password p).failure? (.text t),
        ∃ a b : Setting, f.param? "requirement" = some a.word ∧
          g.param? "requirement" = some b.word ∧ a.rank ≤ b.rank := by
  rw [failure?_password, failure?_password]
  refine ⟨?_, ?_⟩
  · rw [Option.map_eq_none_iff, Option.map_eq_none_iff, unmet?_eq_none_iff, unmet?_eq_none_iff]
    intro hmet r
    exact (hmet r).of_enriches h
  · intro f hf g hg
    obtain ⟨a, ha, rfl⟩ := Option.map_eq_some_iff.1 hf
    obtain ⟨b, hb, rfl⟩ := Option.map_eq_some_iff.1 hg
    exact ⟨a, b, p.param?_complaint _ a, p.param?_complaint _ b, rank_le_of_unmet? h ha hb⟩

/-- A password that is too short, and one that lacks a capital letter: the same characters in another
order, with five more among them. -/
theorem enriching_is_no_worse_anagram :
    let check (password : String) := (Rule.password .standard).failure? (.text password)
    let poor := standard.complaint "short".toList .minLength
    let rich := standard.complaint "1234-trohs".toList (.requires .uppercase)
    Enriches "1234-trohs".toList "short".toList ∧
      poor ∈ check "short" ∧ rich ∈ check "1234-trohs" ∧
      ∃ a b : Setting, poor.param? "requirement" = some a.word ∧
        rich.param? "requirement" = some b.word ∧ a.rank ≤ b.rank := by
  intro check poor rich
  have hlonger : Enriches "short-1234".toList "short".toList := .of_sublist (by decide)
  have hshuffled : Enriches "1234-trohs".toList "short-1234".toList := .of_perm (by decide)
  have h := hshuffled.trans hlonger
  have hpoor : poor ∈ check "short" := by decide +kernel
  have hrich : rich ∈ check "1234-trohs" := by decide +kernel
  exact ⟨h, hpoor, hrich, (enriching_is_no_worse standard h).2 poor hpoor rich hrich⟩

end Policy

end RecordRules.Password
