/-
Option lists: `key=value` parts separated by commas.

Parts are trimmed and blank ones skipped. A part is cut at its first equals sign, and key and value
are trimmed. The first part without an equals sign spoils the list.

* **`find?_key_eq_some_iff`** — a key finds the thing that has it;
* **`readFlag?_eq_some_iff`** — a truth value is read from its six spellings and from nothing else;
* **`pairs_eq_ok_iff`** — a list has pairs when every part gives one, and they are these, in order;
* **`pairs_eq_error_iff`** — a list is spoilt exactly by the first part without an equals sign;
* **`readParts_append`** — of the parts of two lists, those of the first are read first;
* **`pairs_append_cons`** — so two lists with a comma between them are read one after the other.
-/
import RecordRules.Text.Blank
import RecordRules.Text.Cut

namespace RecordRules.Options

open Text

/-- A key and a value, both trimmed. -/
abbrev Pair := List Char × List Char

/-- The trimmed parts that are not blank. -/
def parts (s : List Char) : List (List Char) :=
  ((pieces ',' s).map trim).filter (· ≠ [])

/-- The pair that a part gives. -/
def pair? (part : List Char) : Option Pair :=
  (cut '=' part).map fun (key, value) => (trim key, trim value)

/-- The pairs of some parts, or the first part that gives none. -/
def readParts : List (List Char) → Except (List Char) (List Pair)
  | [] => .ok []
  | part :: rest =>
    match pair? part with
    | none => .error part
    | some pair => (readParts rest).map (pair :: ·)

/-- The pairs of an option list, or its first part without an equals sign. -/
def pairs (s : List Char) : Except (List Char) (List Pair) := readParts (parts s)

/-- The part that writes a pair. -/
def writePair (pair : Pair) : List Char := pair.1 ++ '=' :: pair.2

/-- The option list that writes some pairs. -/
def write (ps : List Pair) : List Char := [','].intercalate (ps.map writePair)

/-- Reads a truth value in one of its twelve spellings. -/
def readFlag? (s : List Char) : Option Bool :=
  let spelt (words : List String) : Bool := words.any fun word => word.toList = s
  if spelt ["1", "t", "T", "TRUE", "true", "True"] then some true
  else if spelt ["0", "f", "F", "FALSE", "false", "False"] then some false
  else none

/-! ### Keys -/

/-- If each of some things is found by its own key, a key finds the thing that has it. -/
theorem find?_key_eq_some_iff {α : Type} {all : List α} {key : α → String}
    (hown : ∀ x, all.find? (fun y => key y = key x) = some x) {s : String} {x : α} :
    all.find? (fun y => key y = s) = some x ↔ key x = s := by
  constructor
  · intro h
    simpa using List.find?_some h
  · rintro rfl
    exact hown x

/-! ### Spellings of truth values -/

/-- The spellings of a truth value. -/
def spellings : Bool → List String
  | true => ["1", "t", "T", "TRUE", "true", "True"]
  | false => ["0", "f", "F", "FALSE", "false", "False"]

theorem readFlag?_eq_some_iff {s : List Char} {b : Bool} :
    readFlag? s = some b ↔ ∃ word ∈ spellings b, word.toList = s := by
  constructor
  · intro h
    have hspelt : ∀ words : List String, (words.any fun word => word.toList = s) = true →
        ∃ word ∈ words, word.toList = s := by
      intro words hany
      obtain ⟨word, hword, heq⟩ := List.any_eq_true.1 hany
      exact ⟨word, hword, of_decide_eq_true heq⟩
    simp only [readFlag?] at h
    split at h
    · next htrue =>
      cases h
      exact hspelt _ htrue
    · split at h
      · next hfalse =>
        cases h
        exact hspelt _ hfalse
      · cases h
  · rintro ⟨word, hword, rfl⟩
    have hall : ∀ b, ∀ word ∈ spellings b, readFlag? word.toList = some b := by decide
    exact hall b word hword

/-! ### Where a list is spoilt -/

theorem pair?_eq_none_iff {part : List Char} : pair? part = none ↔ '=' ∉ part := by
  simp [pair?, cut_eq_none_iff]

/-- Blanks around a part are blanks around its key and its value. -/
theorem pair?_trim (part : List Char) : pair? (trim part) = pair? part := by
  obtain ⟨a, b, ha, hb, hpart⟩ := exists_append_trimEnds isBlank part
  cases hcut : cut '=' (trim part) with
  | none =>
    have hnone : cut '=' part = none := by
      rw [cut_eq_none_iff] at hcut ⊢
      rwa [← mem_trimEnds_iff (p := isBlank) (by decide)]
    rw [pair?, pair?, hcut, hnone]
  | some pair =>
    obtain ⟨key, value⟩ := pair
    obtain ⟨hkey, htrim⟩ := cut_eq_some_iff.1 hcut
    have hsome : cut '=' part = some (a ++ key, value ++ b) := by
      refine cut_eq_some_iff.2 ⟨?_, ?_⟩
      · -- an equals sign in front would be a blank
        intro hmem
        rcases List.mem_append.1 hmem with hmem | hmem
        · exact absurd (ha _ hmem) (by decide)
        · exact hkey hmem
      · calc part = a ++ trim part ++ b := hpart
          _ = (a ++ key) ++ '=' :: (value ++ b) := by rw [htrim]; simp
    have hkeyTrim : trim (a ++ key) = trim key := trimEnds_append_left ha key
    have hvalueTrim : trim (value ++ b) = trim value := trimEnds_append_right hb value
    simp only [pair?, hcut, hsome, Option.map_some, hkeyTrim, hvalueTrim]

theorem readParts_append (ps qs : List (List Char)) :
    readParts (ps ++ qs)
      = (readParts ps).bind fun a => (readParts qs).map fun b => a ++ b := by
  induction ps with
  | nil =>
    show readParts qs = (readParts qs).map fun b => b
    cases readParts qs <;> rfl
  | cons part ps ih =>
    simp only [List.cons_append, readParts]
    cases pair? part with
    | none => rfl
    | some pair =>
      simp only [ih]
      cases readParts ps with
      | error _ => rfl
      | ok _ => cases readParts qs <;> rfl

theorem parts_append_cons (a b : List Char) : parts (a ++ ',' :: b) = parts a ++ parts b := by
  rw [parts, pieces_append_cons, List.map_append, List.filter_append, parts, parts]

theorem pairs_append_cons (a b : List Char) :
    pairs (a ++ ',' :: b) = (pairs a).bind fun ps => (pairs b).map fun qs => ps ++ qs := by
  rw [pairs, parts_append_cons, readParts_append, pairs, pairs]

/-- A search of the parts is one of the pieces that are not blank. -/
theorem find?_parts (s : List Char) (p : List Char → Bool) :
    (parts s).find? p
      = ((pieces ',' s).find? fun piece =>
          decide (trim piece ≠ []) && p (trim piece)).map trim := by
  rw [parts, List.find?_filter, List.find?_map]
  simp only [Function.comp_def, Bool.decide_and, Bool.decide_eq_true, decide_not]

theorem readParts_eq_ok_iff {ps : List (List Char)} {qs : List Pair} :
    readParts ps = .ok qs ↔ ps.map pair? = qs.map some := by
  induction ps generalizing qs with
  | nil => cases qs <;> simp [readParts]
  | cons part ps ih =>
    rw [readParts]
    cases hp : pair? part with
    | none => cases qs <;> simp [hp]
    | some pair =>
      cases hr : readParts ps with
      | error bad =>
        -- some later part gives no pair, so no list of pairs is that of all parts
        have hne : ∀ qs : List Pair, ps.map pair? ≠ qs.map some := by
          intro qs h
          rw [ih.2 h] at hr
          cases hr
        cases qs <;> simp [Except.map, hne]
      | ok rest =>
        have hrest := ih.1 hr
        cases qs with
        | nil => simp [Except.map]
        | cons q qs =>
          simp only [Except.map, Except.ok.injEq, List.cons.injEq, List.map_cons, hp, hrest,
            Option.some.injEq]
          refine and_congr_right fun _ => ⟨fun h => h ▸ rfl, fun h => ?_⟩
          exact (List.map_inj_right fun _ _ => Option.some.inj).1 h

theorem readParts_eq_error_iff {ps : List (List Char)} {part : List Char} :
    readParts ps = .error part ↔ ps.find? (fun p => '=' ∉ p) = some part := by
  induction ps with
  | nil => simp [readParts]
  | cons p ps ih =>
    rw [readParts]
    cases hp : pair? p with
    | none =>
      have h := pair?_eq_none_iff.1 hp
      simp [h]
    | some pair =>
      have h : '=' ∈ p := by
        by_cases h : '=' ∈ p
        · exact h
        · rw [pair?_eq_none_iff.2 h] at hp; cases hp
      rw [List.find?_cons_of_neg (by simpa using h), ← ih]
      cases readParts ps <;> simp [Except.map]

theorem pairs_eq_ok_iff {s : List Char} {qs : List Pair} :
    pairs s = .ok qs ↔ (parts s).map pair? = qs.map some :=
  readParts_eq_ok_iff

theorem pairs_eq_error_iff {s part : List Char} :
    pairs s = .error part ↔ (parts s).find? (fun p => '=' ∉ p) = some part :=
  readParts_eq_error_iff

end RecordRules.Options
