/-
Blanks around tokens make no difference.

Names, options and keys are trimmed when they are read, so a token with blanks put in opens a group,
assigns a setting and makes a call of its own exactly as the token without them. The options of a
group keep the blanks between their parts, and only read alike.

* **`Spacing.cut_around`** — the first equals sign stays the first, with blanks around it;
* **`parts_trimEnds`** — trimming the options of a group drops none of their parts;
* **`readParts_eq_of_alike`** — lists whose parts are read alike have the same pairs, or the same
  bad part;
* **`ofTokens_agrees`** — tokens and the same tokens with blanks make calls that agree;
* **`calls_spaced`** — so do rule texts.
-/
import Mathlib.Data.List.Forall2
import RecordRules.Proofs.Spec.Tokens

namespace RecordRules.Spec

open Text Password

/-! ### Tokens with blanks -/

theorem Blanks.not_mem (blanks : Blanks) {c : Char} (h : isBlank c = false) : c ∉ blanks.chars := by
  intro hmem
  rw [blanks.isBlank_of_mem c hmem] at h
  cases h

theorem Blanks.trim_between (a b : Blanks) (s : List Char) :
    trim (a.chars ++ s ++ b.chars) = trim s :=
  trimEnds_append a.isBlank_of_mem b.isBlank_of_mem s

theorem Blanks.not_mem_between (a b : Blanks) {c : Char} (h : isBlank c = false) {s : List Char}
    (hs : c ∉ s) : c ∉ a.chars ++ s ++ b.chars := by
  simp [a.not_mem h, b.not_mem h, hs]

namespace Spacing

variable (s : Spacing) (token : List Char)

theorem cut_around : cut '=' (s.around token)
    = (cut '=' token).map fun (name, options) =>
      (s.before.chars ++ name ++ s.left.chars, s.right.chars ++ options ++ s.after.chars) := by
  unfold around
  cases hcut : cut '=' token with
  | none =>
    have hequals := cut_eq_none_iff.1 hcut
    exact cut_eq_none_iff.2 (s.before.not_mem_between s.after (by decide) hequals)
  | some pair =>
    have hequals := (cut_eq_some_iff.1 hcut).1
    exact cut_append_cons (s.before.not_mem_between s.left (by decide) hequals)

theorem opening?_around :
    opening? (s.around token)
      = (opening? token).map fun options => s.right.chars ++ options ++ s.after.chars := by
  rw [opening?, opening?, cut_around]
  cases cut '=' token with
  | none => rfl
  | some pair =>
    simp only [Option.map_some, Option.bind_some, Blanks.trim_between]
    split
    · rfl
    · rfl

theorem isAssignment_around :
    Setting.isAssignment (s.around token) = Setting.isAssignment token := by
  rw [Setting.isAssignment, Setting.isAssignment, cut_around]
  cases cut '=' token with
  | none => rfl
  | some pair => simp only [Option.map_some, Blanks.trim_between]

theorem trim_around {token : List Char} (h : '=' ∉ token) : trim (s.around token) = trim token := by
  rw [around, cut_eq_none_iff.2 h]
  exact Blanks.trim_between _ _ _

theorem plainCall?_around : plainCall? (s.around token) = plainCall? token := by
  rw [plainCall?, plainCall?, cut_around]
  cases hcut : cut '=' token with
  | none => simp only [Option.map_none, s.trim_around (cut_eq_none_iff.1 hcut)]
  | some pair => simp only [Option.map_some, Blanks.trim_between]

theorem pair?_around : Options.pair? (s.around token) = Options.pair? token := by
  rw [Options.pair?, Options.pair?, cut_around]
  cases cut '=' token with
  | none => rfl
  | some pair => simp only [Option.map_some, Blanks.trim_between]

theorem comma_not_mem_around {token : List Char} (h : ',' ∉ token) : ',' ∉ s.around token := by
  unfold around
  cases hcut : cut '=' token with
  | none => exact s.before.not_mem_between s.after (by decide) h
  | some pair =>
    obtain ⟨-, rfl⟩ := cut_eq_some_iff.1 hcut
    have hname : ',' ∉ pair.1 := fun hmem => h (by simp [hmem])
    have hoptions : ',' ∉ pair.2 := fun hmem => h (by simp [hmem])
    have hbefore := s.before.not_mem_between s.left (by decide) hname
    have hafter := s.right.not_mem_between s.after (by decide) hoptions
    simp only [List.mem_append, List.mem_cons, not_or] at hbefore hafter ⊢
    exact ⟨hbefore, by decide, hafter⟩

end Spacing

/-! ### Options of groups -/

theorem isBlank_of_ne_comma {c : Char} (h : isGroupEnd c = true) (hcomma : c ≠ ',') :
    isBlank c = true := by
  simpa [isGroupEnd, hcomma] using h

theorem parts_cons {c : Char} (hc : isGroupEnd c = true) (s : List Char) :
    Options.parts (c :: s) = Options.parts s := by
  by_cases hcomma : c = ','
  · rw [hcomma]
    exact Options.parts_append_cons [] s
  · have hblank := isBlank_of_ne_comma hc hcomma
    obtain ⟨piece, more, hs, hcs⟩ := pieces_cons_of_ne hcomma s
    have htrim : trim (c :: piece) = trim piece :=
      trimEnds_append_left (a := [c]) (by simpa using hblank) piece
    rw [Options.parts, Options.parts, hs, hcs, List.map_cons, List.map_cons, htrim]

theorem parts_concat {c : Char} (hc : isGroupEnd c = true) (s : List Char) :
    Options.parts (s ++ [c]) = Options.parts s := by
  by_cases hcomma : c = ','
  · rw [hcomma, Options.parts_append_cons]
    exact List.append_nil _
  · have hblank := isBlank_of_ne_comma hc hcomma
    obtain ⟨init, last, hs, hsc⟩ := pieces_concat_of_ne hcomma s
    have htrim : trim (last ++ [c]) = trim last :=
      trimEnds_append_right (by simpa using hblank) last
    rw [Options.parts, Options.parts, hs, hsc, List.map_append, List.map_append, List.map_singleton,
      List.map_singleton, htrim]

theorem parts_append_left {a : List Char} (ha : ∀ c ∈ a, isGroupEnd c = true) (s : List Char) :
    Options.parts (a ++ s) = Options.parts s := by
  induction a with
  | nil => rfl
  | cons c a ih =>
    obtain ⟨hc, ha⟩ := List.forall_mem_cons.1 ha
    rw [List.cons_append, parts_cons hc, ih ha]

theorem parts_append_right {b : List Char} (hb : ∀ c ∈ b, isGroupEnd c = true) (s : List Char) :
    Options.parts (s ++ b) = Options.parts s := by
  -- the first of the last characters goes with the text, so the text grows
  induction b generalizing s with
  | nil => rw [List.append_nil]
  | cons c b ih =>
    obtain ⟨hc, hb⟩ := List.forall_mem_cons.1 hb
    rw [List.append_cons, ih hb, parts_concat hc]

/-- Trimming the options of a group drops blanks and blank parts only. -/
theorem parts_trimEnds (s : List Char) :
    Options.parts (trimEnds isGroupEnd s) = Options.parts s := by
  obtain ⟨a, b, ha, hb, hs⟩ := exists_append_trimEnds isGroupEnd s
  calc Options.parts (trimEnds isGroupEnd s)
      = Options.parts (a ++ trimEnds isGroupEnd s) := (parts_append_left ha _).symm
    _ = Options.parts (a ++ trimEnds isGroupEnd s ++ b) := (parts_append_right hb _).symm
    _ = Options.parts s := by rw [← hs]

/-- Parts that are read alike: they give the same pair, or they give none and differ in the blanks
at their ends only. -/
structure ReadAlike (p q : List Char) : Prop where
  pair?_eq : Options.pair? q = Options.pair? p
  trim_eq : '=' ∉ p → trim q = trim p

theorem trim_ne_nil_of_pair? {part : List Char} {pair : Options.Pair}
    (h : Options.pair? part = some pair) : trim part ≠ [] := by
  intro hblank
  rw [← Options.pair?_trim, hblank] at h
  cases h

/-- Lists whose parts are read alike have the same pairs, or the same bad part. -/
theorem readParts_eq_of_alike {ps qs : List (List Char)} (h : List.Forall₂ ReadAlike ps qs) :
    Options.readParts ((qs.map trim).filter (· ≠ []))
      = Options.readParts ((ps.map trim).filter (· ≠ [])) := by
  induction h with
  | nil => rfl
  | @cons p q ps qs halike _ ih =>
    rw [List.map_cons, List.map_cons]
    cases hpair : Options.pair? p with
    | none =>
      -- the parts are blank or bad, and the same without blanks
      rw [halike.trim_eq (Options.pair?_eq_none_iff.1 hpair), List.filter_cons, List.filter_cons]
      split
      · rw [Options.readParts, Options.readParts, Options.pair?_trim, hpair]
      · exact ih
    | some pair =>
      have hpair' : Options.pair? q = some pair := halike.pair?_eq.trans hpair
      rw [List.filter_cons_of_pos (by simpa using trim_ne_nil_of_pair? hpair'),
        List.filter_cons_of_pos (by simpa using trim_ne_nil_of_pair? hpair),
        Options.readParts, Options.readParts, Options.pair?_trim, Options.pair?_trim, hpair, hpair',
        ih]

/-- The parts of a group's options are what it takes, trimmed, but for what is blank. -/
theorem parts_groupCall {options : List Char} {absorbed : List (List Char)}
    (h : ∀ part ∈ options :: absorbed, ',' ∉ part) :
    Options.parts (groupCall options absorbed).options.toList
      = ((options :: absorbed).map trim).filter (· ≠ []) := by
  rw [groupCall, String.toList_ofList, parts_trimEnds, Options.parts,
    pieces_intercalate (List.cons_ne_nil _ _) h]

/-! ### Tokens and texts -/

/-- Whether a token is another one with blanks put in. -/
def IsSpaced (token token' : List Char) : Prop := ∃ s : Spacing, s.around token = token'

theorem IsSpaced.isAssignment_eq {token token' : List Char} (h : IsSpaced token token') :
    Setting.isAssignment token' = Setting.isAssignment token := by
  obtain ⟨s, rfl⟩ := h
  exact s.isAssignment_around token

theorem IsSpaced.comma_not_mem {token token' : List Char} (h : IsSpaced token token')
    (hcomma : ',' ∉ token) : ',' ∉ token' := by
  obtain ⟨s, rfl⟩ := h
  exact s.comma_not_mem_around hcomma

theorem IsSpaced.readAlike {token token' : List Char} (h : IsSpaced token token') :
    ReadAlike token token' := by
  obtain ⟨s, rfl⟩ := h
  exact ⟨s.pair?_around token, s.trim_around⟩

/-- A group takes the same tokens, with or without blanks, and the same tokens are left after it. -/
theorem forall₂_span {tokens tokens' : List (List Char)}
    (h : List.Forall₂ IsSpaced tokens tokens') :
    List.Forall₂ IsSpaced (tokens.takeWhile Setting.isAssignment)
        (tokens'.takeWhile Setting.isAssignment) ∧
      List.Forall₂ IsSpaced (tokens.dropWhile Setting.isAssignment)
        (tokens'.dropWhile Setting.isAssignment) := by
  induction h with
  | nil => exact ⟨.nil, .nil⟩
  | cons hspaced hrest ih =>
    rw [List.takeWhile_cons, List.takeWhile_cons, List.dropWhile_cons, List.dropWhile_cons,
      hspaced.isAssignment_eq]
    split
    · exact ⟨.cons hspaced ih.1, ih.2⟩
    · exact ⟨.nil, .cons hspaced hrest⟩

theorem Call.Agrees.refl (c : Call) : c.Agrees c := ⟨rfl, fun _ => rfl, fun _ _ => rfl⟩

theorem comma_not_mem_of_spaced {tokens tokens' : List (List Char)}
    (h : List.Forall₂ IsSpaced tokens tokens') (hcomma : ∀ token ∈ tokens, ',' ∉ token) :
    ∀ token ∈ tokens', ',' ∉ token := by
  induction h with
  | nil => simp
  | cons hspaced _ ih =>
    obtain ⟨hfirst, hrest⟩ := List.forall_mem_cons.1 hcomma
    exact List.forall_mem_cons.2 ⟨hspaced.comma_not_mem hfirst, ih hrest⟩

/-- What a group takes with blanks reads like what it takes without them, part by part. -/
theorem agrees_groupCall (s : Spacing) {options : List Char} {absorbed absorbed' : List (List Char)}
    (hoptions : ',' ∉ options) (hcomma : ∀ token ∈ absorbed, ',' ∉ token)
    (h : List.Forall₂ IsSpaced absorbed absorbed') :
    (groupCall options absorbed).Agrees
      (groupCall (s.right.chars ++ options ++ s.after.chars) absorbed') := by
  have htrim : trim (s.right.chars ++ options ++ s.after.chars) = trim options :=
    Blanks.trim_between _ _ _
  have hfirst : ReadAlike options (s.right.chars ++ options ++ s.after.chars) := by
    refine ⟨?_, fun _ => htrim⟩
    rw [← Options.pair?_trim, htrim, Options.pair?_trim]
  have halike := List.Forall₂.cons hfirst (h.imp fun _ _ => IsSpaced.readAlike)
  have hparts := parts_groupCall (List.forall_mem_cons.2 ⟨hoptions, hcomma⟩)
  have hparts' := parts_groupCall (List.forall_mem_cons.2
    ⟨s.right.not_mem_between s.after (by decide) hoptions, comma_not_mem_of_spaced h hcomma⟩)
  refine ⟨rfl, fun hname => absurd rfl hname, ?_⟩
  intro _ custom
  rw [Policy.effective_eq, Policy.effective_eq, Options.pairs, Options.pairs, hparts, hparts',
    readParts_eq_of_alike halike]

/-- Tokens and the same tokens with blanks make calls that agree. -/
theorem ofTokens_agrees {tokens tokens' : List (List Char)}
    (hcomma : ∀ token ∈ tokens, ',' ∉ token) (h : List.Forall₂ IsSpaced tokens tokens') :
    List.Forall₂ Call.Agrees (ofTokens tokens) (ofTokens tokens') := by
  fun_induction ofTokens tokens generalizing tokens' with
  | case1 =>
    cases h
    rw [ofTokens_nil]
    exact .nil
  | case2 token rest options hopen ih =>
    cases h with
    | cons htoken hrest =>
      obtain ⟨s, rfl⟩ := htoken
      obtain ⟨hfirst, hcomma⟩ := List.forall_mem_cons.1 hcomma
      obtain ⟨htake, hdrop⟩ := forall₂_span hrest
      have hoptions : ',' ∉ options := by
        obtain ⟨name, hcut, -⟩ := cut_of_opening? hopen
        obtain ⟨-, rfl⟩ := cut_eq_some_iff.1 hcut
        exact fun hmem => hfirst (by simp [hmem])
      have hopen' := s.opening?_around token
      rw [hopen] at hopen'
      rw [ofTokens_group hopen']
      refine .cons (agrees_groupCall s hoptions ?_ htake) (ih ?_ hdrop)
      · exact fun part hpart => hcomma part (List.takeWhile_subset _ hpart)
      · exact fun part hpart => hcomma part (List.dropWhile_subset _ hpart)
  | case3 token rest hopen ih =>
    cases h with
    | cons htoken hrest =>
      obtain ⟨s, rfl⟩ := htoken
      have hopen' := s.opening?_around token
      rw [hopen] at hopen'
      rw [ofTokens_plain hopen', s.plainCall?_around]
      refine List.rel_append ?_ (ih (List.forall_mem_cons.1 hcomma).2 hrest)
      exact List.forall₂_same.2 fun c _ => Call.Agrees.refl c

theorem forall₂_mapIdx_around (spacings : Nat → Spacing) (tokens : List (List Char)) :
    List.Forall₂ IsSpaced tokens (tokens.mapIdx fun i token => (spacings i).around token) := by
  induction tokens generalizing spacings with
  | nil => exact .nil
  | cons token rest ih =>
    rw [List.mapIdx_cons]
    exact .cons ⟨spacings 0, rfl⟩ (ih fun i => spacings (i + 1))

theorem pieces_spaced (spacings : Nat → Spacing) (text : String) :
    pieces ',' (spaced spacings text).toList
      = (pieces ',' text.toList).mapIdx fun i token => (spacings i).around token := by
  have hspaced := forall₂_mapIdx_around spacings (pieces ',' text.toList)
  rw [spaced, String.toList_ofList]
  refine pieces_intercalate ?_ ?_
  · intro hnil
    rw [hnil, List.forall₂_nil_right_iff] at hspaced
    exact pieces_ne_nil ',' text.toList hspaced
  · exact comma_not_mem_of_spaced hspaced fun token htoken => not_mem_of_mem_pieces htoken

/-- **Blanks around tokens make no difference.** Put any blanks at both ends of every token of a
rule text, and on both sides of the first equals sign of every token that has one. The text makes as
many calls as before, with the same names in the same order. Each has the options that it had, except
that those of a password rule may be written with other blanks; under every custom policy they make
the same policy as before, or are bad by the same part. -/
theorem calls_spaced (spacings : Nat → Spacing) (text : String) :
    List.Forall₂ Call.Agrees (ofText text).calls (ofText (spaced spacings text)).calls := by
  rw [calls_eq_ofTokens, calls_eq_ofTokens, pieces_spaced]
  refine ofTokens_agrees ?_ (forall₂_mapIdx_around spacings _)
  exact fun token htoken => not_mem_of_mem_pieces htoken

/-- One space in every place. The options of the group keep those that are not at its ends. -/
example :
    let space : Blanks := ⟨[' '], List.forall_mem_singleton.2 rfl⟩
    let text := spaced (fun _ => ⟨space, space, space, space⟩)
      "password=min_length=4,require_digits=0"
    text = " password = min_length=4 , require_digits = 0 " ∧
      (ofText text).calls = [⟨"password", "min_length=4 , require_digits = 0"⟩] := by
  decide +kernel

end RecordRules.Spec
