/-
Rule texts with a comma between them.

A comma ends a token, but not the group that the token belongs to. So a group at the end of one text
takes the assignments at the head of the next, each of which would make a call of its own there.
Nothing else of the two texts is read in another way for standing side by side.

* **`endsInGroup_group`**, **`endsInGroup_plain`** — whether the last token belongs to a group, from
  the first token on;
* **`ofTokens_append_of_closed`** — tokens that do not end in a group make their calls whatever
  follows;
* **`ofTokens_append_of_open`** — a group at the end takes the assignments that follow;
* **`length_ofTokens`** — without a group before them, assignments make a call each;
* **`calls_ofText_comma`** — when two texts make the calls of both, and how many calls are missing
  otherwise.
-/
import Mathlib.Data.List.TakeWhile
import RecordRules.Proofs.Spec.Tokens

namespace RecordRules.Spec

open Text Password

variable {token options : List Char} {tokens rest : List (List Char)}

/-! ### The run of the last token -/

theorem runs_ne_nil (h : tokens ≠ []) : runs tokens ≠ [] := by
  intro hruns
  have hflatten := flatten_runs tokens
  rw [hruns] at hflatten
  exact h hflatten.symm

@[simp] theorem endsInGroup_nil : endsInGroup [] = false := by
  rw [endsInGroup, runs]
  rfl

/-- The last run is the first one only where no token is left after it. -/
theorem getLast?_runs_cons (run : List (List Char)) (h : tokens ≠ []) :
    (run :: runs tokens).getLast? = (runs tokens).getLast? := by
  obtain ⟨next, more, hruns⟩ := List.exists_cons_of_ne_nil (runs_ne_nil h)
  rw [hruns, List.getLast?_cons_cons]

theorem endsInGroup_group (h : opening? token = some options) :
    endsInGroup (token :: rest)
      = ((rest.dropWhile Setting.isAssignment).isEmpty
        || endsInGroup (rest.dropWhile Setting.isAssignment)) := by
  have hopen : (opening? token).isSome = true := by rw [h]; rfl
  rw [endsInGroup, runs, if_pos hopen]
  by_cases hrest : rest.dropWhile Setting.isAssignment = []
  · rw [hrest, runs]
    simp [hopen]
  · rw [getLast?_runs_cons _ hrest, List.isEmpty_eq_false_iff.2 hrest, Bool.false_or, endsInGroup]

theorem endsInGroup_plain (h : opening? token = none) :
    endsInGroup (token :: rest) = endsInGroup rest := by
  have hopen : ¬ (opening? token).isSome = true := by simp [h]
  rw [endsInGroup, runs, if_neg hopen]
  by_cases hrest : rest = []
  · rw [hrest, endsInGroup_nil, runs]
    simp [h]
  · rw [getLast?_runs_cons _ hrest, endsInGroup]

/-! ### Tokens that follow -/

theorem ofTokens_group_append {more : List (List Char)} (hopen : opening? token = some options)
    (hmore : ∀ part ∈ more, Setting.isAssignment part = true)
    (hrest : ∀ next ∈ rest.head?, Setting.isAssignment next = false) :
    ofTokens (token :: (more ++ rest)) = groupCall options more :: ofTokens rest := by
  rw [ofTokens_group hopen, List.takeWhile_append_of_pos hmore, List.dropWhile_append_of_pos hmore]
  cases rest with
  | nil => simp
  | cons next rest =>
    have hnext : ¬ Setting.isAssignment next = true := by simp [hrest next rfl]
    rw [List.takeWhile_cons_of_neg hnext, List.dropWhile_cons_of_neg hnext, List.append_nil]

/-- A group that another token ends takes no token that is put at the end. -/
theorem ofTokens_group_ended (hopen : opening? token = some options)
    (hrest : rest.dropWhile Setting.isAssignment ≠ []) (next : List (List Char)) :
    ofTokens (token :: rest ++ next)
      = groupCall options (rest.takeWhile Setting.isAssignment)
        :: ofTokens (rest.dropWhile Setting.isAssignment ++ next) := by
  have hsplit : token :: rest ++ next = token :: (rest.takeWhile Setting.isAssignment
      ++ (rest.dropWhile Setting.isAssignment ++ next)) := by
    rw [← List.append_assoc, List.takeWhile_append_dropWhile, List.cons_append]
  rw [hsplit]
  refine ofTokens_group_append hopen (List.all_eq_true.1 List.all_takeWhile) ?_
  intro first hfirst
  obtain ⟨ending, more, hending⟩ := List.exists_cons_of_ne_nil hrest
  have hnot := List.head?_dropWhile_not Setting.isAssignment rest
  rw [hending] at hfirst hnot
  obtain rfl : ending = first := by simpa using hfirst
  exact hnot

/-- Tokens that do not end in a group make their calls whatever follows. -/
theorem ofTokens_append_of_closed (h : endsInGroup tokens = false) (next : List (List Char)) :
    ofTokens (tokens ++ next) = ofTokens tokens ++ ofTokens next := by
  fun_induction ofTokens tokens with
  | case1 => rfl
  | case2 token rest options hopen ih =>
    rw [endsInGroup_group hopen, Bool.or_eq_false_iff] at h
    obtain ⟨hrest, hlast⟩ := h
    rw [ofTokens_group_ended hopen (List.isEmpty_eq_false_iff.1 hrest), ih hlast]
    rfl
  | case3 token rest hopen ih =>
    rw [endsInGroup_plain hopen] at h
    rw [List.cons_append, ofTokens_plain hopen, ih h, List.append_assoc]

/-- A group at the end takes the assignments that follow, and nothing else changes. -/
theorem ofTokens_append_of_open (h : endsInGroup tokens = true) :
    ∃ calls options absorbed, ∀ next, ofTokens (tokens ++ next)
      = calls ++ groupCall options (absorbed ++ next.takeWhile Setting.isAssignment)
        :: ofTokens (next.dropWhile Setting.isAssignment) := by
  fun_induction ofTokens tokens with
  | case1 =>
    rw [endsInGroup_nil] at h
    cases h
  | case2 token rest options hopen ih =>
    by_cases hrest : rest.dropWhile Setting.isAssignment = []
    · -- the group is the last run: all tokens after the first are its own
      have hall := List.dropWhile_eq_nil_iff.1 hrest
      refine ⟨[], options, rest, ?_⟩
      intro next
      rw [List.cons_append, ofTokens_group hopen, List.takeWhile_append_of_pos hall,
        List.dropWhile_append_of_pos hall]
      rfl
    · rw [endsInGroup_group hopen, List.isEmpty_eq_false_iff.2 hrest, Bool.false_or] at h
      obtain ⟨calls, last, absorbed, hcalls⟩ := ih h
      refine ⟨groupCall options (rest.takeWhile Setting.isAssignment) :: calls, last, absorbed, ?_⟩
      intro next
      rw [ofTokens_group_ended hopen hrest, hcalls]
      rfl
  | case3 token rest hopen ih =>
    rw [endsInGroup_plain hopen] at h
    obtain ⟨calls, last, absorbed, hcalls⟩ := ih h
    refine ⟨(plainCall? token).toList ++ calls, last, absorbed, ?_⟩
    intro next
    rw [List.cons_append, ofTokens_plain hopen, hcalls, List.append_assoc]

/-- Tokens before others make their calls, and so do the others, unless a group at the end of the
first takes one of them. -/
theorem ofTokens_append {next : List (List Char)}
    (h : endsInGroup tokens = true → ∀ first ∈ next.head?, Setting.isAssignment first = false) :
    ofTokens (tokens ++ next) = ofTokens tokens ++ ofTokens next := by
  cases hend : endsInGroup tokens with
  | false => exact ofTokens_append_of_closed hend next
  | true =>
    obtain ⟨calls, options, absorbed, hcalls⟩ := ofTokens_append_of_open hend
    have hnone : next.takeWhile Setting.isAssignment = []
        ∧ next.dropWhile Setting.isAssignment = next := by
      cases next with
      | nil => exact ⟨rfl, rfl⟩
      | cons first more =>
        have hfirst : ¬ Setting.isAssignment first = true := by simp [h hend first rfl]
        exact ⟨List.takeWhile_cons_of_neg hfirst, List.dropWhile_cons_of_neg hfirst⟩
    have hfirst : ofTokens tokens = calls ++ [groupCall options absorbed] := by
      simpa using hcalls []
    rw [hcalls, hfirst, hnone.1, hnone.2, List.append_nil, List.append_assoc]
    rfl

/-! ### Assignments outside groups -/

/-- An assignment opens no group and has a name, its key. -/
theorem exists_plainCall?_of_isAssignment (h : Setting.isAssignment token = true) :
    opening? token = none ∧ ∃ c, plainCall? token = some c := by
  obtain ⟨s, key, value, rfl, hkey, htrim⟩ := Setting.exists_key_of_isAssignment h
  have hall : ∀ s : Setting, s.key.toList ≠ groupName ∧ s.key.toList ≠ [] := by decide
  refine ⟨?_, ⟨s.key, String.ofList (trim value)⟩, ?_⟩
  · rw [opening?, cut_append_cons hkey]
    show (if trim key = groupName then some value else none) = none
    rw [htrim, if_neg (hall s).1]
  · rw [plainCall?, cut_append_cons hkey]
    show named (trim key) (trim value) = _
    rw [htrim, named, if_neg (hall s).2, String.ofList_toList]

/-- Without a group before them, the assignments at the head make a call each. -/
theorem length_ofTokens (tokens : List (List Char)) :
    (ofTokens tokens).length = (tokens.takeWhile Setting.isAssignment).length
      + (ofTokens (tokens.dropWhile Setting.isAssignment)).length := by
  induction tokens with
  | nil => simp
  | cons token rest ih =>
    by_cases h : Setting.isAssignment token = true
    · obtain ⟨hopen, c, hc⟩ := exists_plainCall?_of_isAssignment h
      rw [ofTokens_plain hopen, hc, List.takeWhile_cons_of_pos h, List.dropWhile_cons_of_pos h]
      simp only [Option.toList_some, List.singleton_append, List.length_cons, ih]
      omega
    · rw [List.takeWhile_cons_of_neg h, List.dropWhile_cons_of_neg h, List.length_nil,
        Nat.zero_add]

/-- A group at the end takes from the tokens that follow as many calls as assignments. -/
theorem length_ofTokens_append (h : endsInGroup tokens = true) (next : List (List Char)) :
    (ofTokens (tokens ++ next)).length + (next.takeWhile Setting.isAssignment).length
      = (ofTokens tokens).length + (ofTokens next).length := by
  obtain ⟨calls, options, absorbed, hcalls⟩ := ofTokens_append_of_open h
  have hfirst : ofTokens tokens = calls ++ [groupCall options absorbed] := by
    simpa using hcalls []
  rw [hcalls, hfirst, length_ofTokens next]
  simp only [List.length_append, List.length_cons, List.length_nil]
  omega

/-! ### Whole texts -/

theorem calls_comma (a b : String) :
    (ofText (a ++ "," ++ b)).calls = ofTokens (pieces ',' a.toList ++ pieces ',' b.toList) := by
  have htext : (a ++ "," ++ b).toList = a.toList ++ ',' :: b.toList := by simp
  rw [calls_eq_ofTokens, htext, pieces_append_cons]

/-- **A comma separates rule texts, but not a group from its options.** Two texts with a comma
between them make the calls of the first and then those of the second, unless the last token of the
first belongs to a group and the first token of the second is an assignment; then they do not. Where
the last token of the first belongs to a group, there are fewer calls than in both texts by as many
as there are assignments at the head of the second. -/
theorem calls_ofText_comma (a b : String) :
    let tokens := pieces ',' b.toList
    ((ofText (a ++ "," ++ b)).calls = (ofText a).calls ++ (ofText b).calls ↔
      ¬ (endsInGroup (pieces ',' a.toList) = true ∧
        ∃ token ∈ tokens.head?, Setting.isAssignment token = true)) ∧
      (endsInGroup (pieces ',' a.toList) = true →
        (ofText (a ++ "," ++ b)).size + (tokens.takeWhile Setting.isAssignment).length
          = (ofText a).size + (ofText b).size) := by
  intro tokens
  have hcomma : (ofText (a ++ "," ++ b)).calls = ofTokens (pieces ',' a.toList ++ tokens) :=
    calls_comma a b
  have ha : (ofText a).calls = ofTokens (pieces ',' a.toList) := calls_eq_ofTokens a
  have hb : (ofText b).calls = ofTokens tokens := calls_eq_ofTokens b
  simp only [size, hcomma, ha, hb]
  refine ⟨⟨?_, ?_⟩, ?_⟩
  · -- where a call is missing, the calls cannot be the same
    rintro heq ⟨hend, token, htoken, hassign⟩
    have hlength := length_ofTokens_append hend tokens
    have htake : 0 < (tokens.takeWhile Setting.isAssignment).length := by
      obtain ⟨more, hmore⟩ := List.head?_eq_some_iff.1 htoken
      rw [hmore, List.takeWhile_cons_of_pos hassign]
      exact Nat.succ_pos _
    rw [heq, List.length_append] at hlength
    omega
  · intro hnot
    refine ofTokens_append ?_
    intro hend first hfirst
    exact Bool.eq_false_iff.2 fun hassign => hnot ⟨hend, first, hfirst, hassign⟩
  · intro hend
    exact length_ofTokens_append hend tokens

/-- The group at the end of the first text takes two tokens of the second, though it has no options
yet; of the calls of both texts, two are missing. -/
theorem calls_ofText_comma_open :
    endsInGroup (pieces ',' "email, password = ".toList) = true ∧
      (ofText ("email, password = " ++ "," ++ "min_length=4, require_digits = 0,required")).size + 2
        = (ofText "email, password = ").size
          + (ofText "min_length=4, require_digits = 0,required").size := by
  have hend : endsInGroup (pieces ',' "email, password = ".toList) = true := by decide +kernel
  have htake : ((pieces ',' "min_length=4, require_digits = 0,required".toList).takeWhile
      Setting.isAssignment).length = 2 := by decide +kernel
  have h := (calls_ofText_comma "email, password = "
    "min_length=4, require_digits = 0,required").2 hend
  rw [htake] at h
  exact ⟨hend, h⟩

end RecordRules.Spec
