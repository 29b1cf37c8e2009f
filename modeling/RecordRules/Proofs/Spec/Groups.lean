/-
Groups are cut out of their text in the right places.

Reading goes on in turns. Each of them takes a token or a group, with the comma behind it, and goes
on with what is left. So whatever is left is the whole text, or all of it behind some comma, or
nothing; and a group is looked for at the head of it, by byte offsets.

* **`Turn.exists_calls`**, **`exists_calls_of_turns`** — what is left makes the calls that are still
  to come, after one turn and after any number of them;
* **`Turn.remains`**, **`remains_of_turns`** — where in the text it stands;
* **`exists_spans`** — where in it a group stands;
* **`groups_are_cut_out`** — so the offsets of a group are valid, wherever reading finds it, and
  what lies between them is what the group takes.
-/
import Mathlib.Logic.Relation
import RecordRules.Proofs.Spec.Tokens

namespace RecordRules.Spec

open Text Password Relation

/-- One turn of reading, from a text to what is left of it. -/
inductive Turn : List Char → List Char → Prop where
  | group {text : List Char} {g : Group} (hg : group? text = some g) : Turn text g.rest
  | token {text : List Char} (hne : text ≠ []) (hg : group? text = none) :
    Turn text (firstPiece ',' text).2

variable {text rest : List Char} {g : Group}

/-! ### The calls that are still to come -/

theorem ne_nil_of_group? (hg : group? text = some g) : text ≠ [] := by
  rintro rfl
  cases hg

theorem scan_of_group? (hg : group? text = some g) :
    scan text = ⟨String.ofList groupName, String.ofList (g.options text)⟩ :: scan g.rest := by
  rw [scan, if_neg (ne_nil_of_group? hg)]
  split
  · next g' hg' =>
    obtain rfl : g = g' := Option.some.inj (hg.symm.trans hg')
    rfl
  · next hnone => cases hg.symm.trans hnone

theorem scan_of_token (hne : text ≠ []) (hg : group? text = none) :
    scan text = (plainCall? (firstPiece ',' text).1).toList ++ scan (firstPiece ',' text).2 := by
  rw [scan, if_neg hne]
  split
  · next g hsome => cases hg.symm.trans hsome
  · rfl

theorem Turn.exists_calls (h : Turn text rest) : ∃ calls, scan text = calls ++ scan rest := by
  cases h with
  | group hg => exact ⟨[_], scan_of_group? hg⟩
  | token hne hg => exact ⟨_, scan_of_token hne hg⟩

theorem exists_calls_of_turns (h : ReflTransGen Turn text rest) :
    ∃ calls, scan text = calls ++ scan rest := by
  induction h with
  | refl => exact ⟨[], rfl⟩
  | tail _ hturn ih =>
    obtain ⟨before, hbefore⟩ := ih
    obtain ⟨calls, hcalls⟩ := hturn.exists_calls
    exact ⟨before ++ calls, by rw [hbefore, hcalls, List.append_assoc]⟩

/-! ### Where in the text it is -/

/-- What reading can leave of a text: all of it, or nothing, or all that stands behind a comma. -/
def Remains (text rest : List Char) : Prop :=
  rest = text ∨ rest = [] ∨ ∃ before, text = before ++ ',' :: rest

theorem Follows.remains {before tail : List Char} (h : Follows tail rest)
    (htext : text = before ++ tail) : Remains text rest := by
  rcases h with rfl | ⟨-, hrest⟩
  · exact .inr (.inr ⟨before, htext⟩)
  · exact .inr (.inl hrest)

theorem Remains.trans {mid : List Char} (h : Remains text mid) (h' : Remains mid rest) :
    Remains text rest := by
  rcases h' with rfl | rfl | ⟨inner, rfl⟩
  · exact h
  · exact .inr (.inl rfl)
  · rcases h with rfl | hmid | ⟨before, rfl⟩
    · exact .inr (.inr ⟨inner, rfl⟩)
    · simp at hmid
    · exact .inr (.inr ⟨before ++ ',' :: inner, by simp⟩)

/-! ### Where a group stands -/

/-- What a group takes of a text that begins with it: the text after the equals sign of its first
token, and the assignments behind the token, with the commas between them. -/
def taken (options text : List Char) : List Char :=
  [','].intercalate
    (options :: (pieces ',' (firstPiece ',' text).2).takeWhile Setting.isAssignment)

/-- A text has a group at its head only if its first token opens one. -/
theorem exists_spans (hg : group? text = some g) :
    ∃ name options after, (firstPiece ',' text).1 = name ++ '=' :: options ∧ '=' ∉ name ∧
      trim name = groupName ∧ g.Spans text name (taken options text) after := by
  cases hopen : opening? (firstPiece ',' text).1 with
  | none => cases hg.symm.trans (group?_of_not_opening hopen)
  | some options =>
    obtain ⟨name, hcut, hname⟩ := cut_of_opening? hopen
    obtain ⟨hequals, htoken⟩ := cut_eq_some_iff.1 hcut
    obtain ⟨g', after, hg', hspans, -⟩ := group?_of_opening hcut hname
    obtain rfl : g = g' := Option.some.inj (hg.symm.trans hg')
    refine ⟨name, options, after, htoken, hequals, hname, ?_⟩
    rw [taken, intercalate_cons]
    exact hspans

theorem Turn.remains (h : Turn text rest) : Remains text rest := by
  cases h with
  | group hg =>
    obtain ⟨name, options, after, -, -, -, hspans⟩ := exists_spans hg
    exact hspans.follows.remains hspans.text_eq
  | token =>
    obtain ⟨tail, hfollows, htext⟩ := exists_follows_firstPiece text
    exact hfollows.remains htext

theorem remains_of_turns (h : ReflTransGen Turn text rest) : Remains text rest := by
  induction h with
  | refl => exact .inl rfl
  | tail _ hturn ih => exact ih.trans hturn.remains

/-- **Groups are cut out of their text in the right places.** Wherever reading finds a group, after
any number of turns, it is at the head of the text or behind a comma of it. Its offsets are
positions between characters, in their order and inside the text, so there is a slice between them;
the slice is what the group takes, from behind the first equals sign of its first token to the end
of the last assignment. What is left after the group is what follows that and a comma, or nothing;
and the call that is made of the slice is made next. -/
theorem groups_are_cut_out (text : String) {rest : List Char} {g : Group}
    (hrest : ReflTransGen Turn text.toList rest) (hg : group? rest = some g) :
    ∃ name options after,
      ((firstPiece ',' rest).1 = name ++ '=' :: options ∧ '=' ∉ name ∧ trim name = groupName) ∧
      (rest = name ++ '=' :: taken options rest ++ after ∧
        (after = ',' :: g.rest ∨ after = [] ∧ g.rest = [])) ∧
      (g.start ≤ g.stop ∧ g.stop ≤ (String.ofList rest).utf8ByteSize ∧
        String.Pos.Raw.IsValid (String.ofList rest) ⟨g.start⟩ ∧
        String.Pos.Raw.IsValid (String.ofList rest) ⟨g.stop⟩) ∧
      slice rest g.start g.stop = some (taken options rest) ∧
      (rest = text.toList ∨ ∃ before, text.toList = before ++ ',' :: rest) ∧
      ∃ calls, (ofText text).calls
        = calls ++ ⟨"password", String.ofList (trimEnds isGroupEnd (taken options rest))⟩
            :: scan g.rest := by
  obtain ⟨name, options, after, htoken, hequals, hname, hspans⟩ := exists_spans hg
  have hslice := hspans.slice_eq
  refine ⟨name, options, after, ⟨htoken, hequals, hname⟩, ⟨hspans.text_eq, hspans.follows⟩,
    bounds_of_slice_eq_some hslice, hslice, ?_, ?_⟩
  · exact (remains_of_turns hrest).imp_right fun h => h.resolve_left (ne_nil_of_group? hg)
  · obtain ⟨calls, hcalls⟩ := exists_calls_of_turns hrest
    refine ⟨calls, ?_⟩
    rw [ofText, hcalls, scan_of_group? hg, Group.options, hslice]
    rfl

/-- Blanks of three bytes each stand around the name and behind the assignment, and the options
begin with a letter of two. -/
theorem groups_are_cut_out_wide :
    let text := "required,\u3000password\u3000=é,min_length=6\u3000,email"
    let rest := "\u3000password\u3000=é,min_length=6\u3000,email".toList
    let g : Group := ⟨15, 33, "email".toList⟩
    ReflTransGen Turn text.toList rest ∧ group? rest = some g ∧
      g.stop ≤ (String.ofList rest).utf8ByteSize ∧
      String.Pos.Raw.IsValid (String.ofList rest) ⟨g.start⟩ ∧
      String.Pos.Raw.IsValid (String.ofList rest) ⟨g.stop⟩ ∧
      slice rest g.start g.stop = some "é,min_length=6\u3000".toList := by
  intro text rest g
  have hnone : group? text.toList = none := by decide +kernel
  have hrest : (firstPiece ',' text.toList).2 = rest := by decide +kernel
  have hturn : Turn text.toList rest := hrest ▸ .token (by decide) hnone
  have hg : group? rest = some g := by decide +kernel
  obtain ⟨-, -, -, -, -, ⟨-, hstop, hvalid, hvalid'⟩, -⟩ :=
    groups_are_cut_out text (.single hturn) hg
  exact ⟨.single hturn, hg, hstop, hvalid, hvalid', by decide +kernel⟩

end RecordRules.Spec
