/-
Rule texts are read by the grammar of their tokens.

Reading finds a group by byte offsets in a text that is not cut into tokens yet. While the end of a
group is moved, the text up to it is always the group so far, and the text after it, without its
comma, is what is left.

* **`absorb_follows`** — what the moving of a group's end keeps;
* **`group?_eq_some`** — a group is the opening token and the longest run of assignments after it;
* **`scan_eq_ofTokens`** — reading gives the calls of the grammar;
* **`flatten_runs`**, **`ofTokens_eq_filterMap`** — every token belongs to exactly one run, and a run
  makes one call;
* **`calls_ofText`** — all of this, for every text.
-/
import RecordRules.Spec.Grammar

namespace RecordRules.Spec

open Text Password

variable {text rest tail : List Char}

/-! ### What follows in a text -/

/-- A text that stands after a token or a group: nothing, or a comma and the rest. -/
def Follows (tail rest : List Char) : Prop := tail = ',' :: rest ∨ tail = [] ∧ rest = []

theorem exists_follows_firstPiece (text : List Char) :
    ∃ tail, Follows tail (firstPiece ',' text).2 ∧ text = (firstPiece ',' text).1 ++ tail := by
  cases h : cut ',' text with
  | none =>
    rw [firstPiece_of_not_mem (cut_eq_none_iff.1 h)]
    exact ⟨[], .inr ⟨rfl, rfl⟩, (List.append_nil text).symm⟩
  | some ab =>
    obtain ⟨a, b⟩ := ab
    obtain ⟨hn, rfl⟩ := cut_eq_some_iff.1 h
    rw [firstPiece_of_mem hn]
    exact ⟨',' :: b, .inl rfl, rfl⟩

theorem Follows.eq_comma_cons (h : Follows tail rest) (hne : rest ≠ []) : tail = ',' :: rest := by
  rcases h with h | ⟨-, h⟩
  · exact h
  · exact absurd h hne

theorem ofTokens_pieces_nil : ofTokens (pieces ',' []) = [] := by
  rw [pieces_nil, ofTokens_plain rfl, ofTokens_nil]
  rfl

/-! ### The end of a group -/

/-- The tokens at the head of a text that assign a setting, each with the comma before it. -/
def absorbedText (rest : List Char) : List Char :=
  ((pieces ',' rest).takeWhile Setting.isAssignment).flatMap (',' :: ·)

@[simp] theorem absorbedText_nil : absorbedText [] = [] := rfl

theorem absorbedText_of_not (h : Setting.isAssignment (firstPiece ',' rest).1 = false) :
    absorbedText rest = [] := by
  rcases pieces_eq_firstPiece ',' rest with hp | ⟨-, hp⟩ <;> simp [absorbedText, hp, h]

theorem absorbedText_of (h : Setting.isAssignment (firstPiece ',' rest).1 = true) :
    absorbedText rest
      = ',' :: (firstPiece ',' rest).1 ++ absorbedText (firstPiece ',' rest).2 := by
  rcases pieces_eq_firstPiece ',' rest with hp | ⟨hnil, hp⟩
  · simp [absorbedText, hp, h]
  · rw [hnil, absorbedText_nil]
    simp [absorbedText, hp, h]

theorem absorb_fst (stop : Nat) (rest : List Char) :
    (absorb stop rest).1 = stop + byteLength (absorbedText rest) := by
  fun_induction absorb stop rest with
  | case1 => rfl
  | case2 stop rest hne h ih =>
    have hcomma : byteLength (',' :: (firstPiece ',' rest).1)
        = 1 + byteLength (firstPiece ',' rest).1 := rfl
    rw [ih, absorbedText_of h, byteLength_append, hcomma]
    omega
  | case3 stop rest hne h => simp [absorbedText_of_not (Bool.eq_false_iff.2 h), byteLength]

/-- The text after the group, without its comma, is what is left. -/
theorem absorb_follows (stop : Nat) (rest : List Char) (hfollows : Follows tail rest) :
    ∃ after, tail = absorbedText rest ++ after ∧ Follows after (absorb stop rest).2 := by
  -- `tail` and `rest` differ by a comma before a token, and by nothing after the last one
  fun_induction absorb stop rest generalizing tail with
  | case1 => exact ⟨tail, rfl, hfollows⟩
  | case2 stop rest hne h ih =>
    obtain ⟨tail', hfollows', hrest⟩ := exists_follows_firstPiece rest
    obtain ⟨after, htail', hafter⟩ := ih hfollows'
    refine ⟨after, ?_, hafter⟩
    calc tail = ',' :: rest := hfollows.eq_comma_cons hne
      _ = ',' :: ((firstPiece ',' rest).1 ++ tail') := congrArg _ hrest
      _ = absorbedText rest ++ after := by rw [htail', absorbedText_of h]; simp
  | case3 stop rest hne h =>
    rw [absorbedText_of_not (Bool.eq_false_iff.2 h)]
    exact ⟨tail, rfl, hfollows⟩

theorem ofTokens_absorb (stop : Nat) (rest : List Char) :
    ofTokens (pieces ',' (absorb stop rest).2)
      = ofTokens ((pieces ',' rest).dropWhile Setting.isAssignment) := by
  fun_induction absorb stop rest with
  | case1 => rfl
  | case2 stop rest hne h ih =>
    rw [ih]
    rcases pieces_eq_firstPiece ',' rest with hp | ⟨hnil, hp⟩
    · rw [hp, List.dropWhile_cons_of_pos h]
    · -- nothing is left, be it after a last comma or not
      rw [hp, List.dropWhile_cons_of_pos h, hnil]
      exact ofTokens_pieces_nil.trans ofTokens_nil.symm
  | case3 stop rest hne h =>
    rcases pieces_eq_firstPiece ',' rest with hp | ⟨-, hp⟩ <;>
      rw [hp, List.dropWhile_cons_of_neg h]

/-! ### Groups -/

/-- Where a group stands in its text, of which `name` is what comes before the first equals sign,
`inner` is what the group takes after it, and `after` is what follows the group. -/
structure Group.Spans (g : Group) (text name inner after : List Char) : Prop where
  text_eq : text = name ++ '=' :: inner ++ after
  start_eq : g.start = byteLength (name ++ ['='])
  stop_eq : g.stop = byteLength (name ++ '=' :: inner)
  follows : Follows after g.rest

/-- The slice between a group's offsets is what the group takes. -/
theorem Group.Spans.slice_eq {g : Group} {name inner after : List Char}
    (h : g.Spans text name inner after) : slice text g.start g.stop = some inner := by
  have htext : text = (name ++ ['=']) ++ inner ++ after := by rw [h.text_eq]; simp
  have hstop : g.stop = byteLength (name ++ ['=']) + byteLength inner := by
    rw [h.stop_eq, ← byteLength_append]
    simp
  rw [htext, h.start_eq, hstop, slice_append]

theorem cut_of_opening? {token options : List Char} (h : opening? token = some options) :
    ∃ name, cut '=' token = some (name, options) ∧ trim name = groupName := by
  unfold opening? at h
  rw [Option.bind_eq_some_iff] at h
  obtain ⟨⟨name, options'⟩, hcut, h⟩ := h
  simp only [Option.ite_none_right_eq_some, Option.some.injEq] at h
  obtain ⟨hname, rfl⟩ := h
  exact ⟨name, hcut, hname⟩

theorem group?_of_not_opening (h : opening? (firstPiece ',' text).1 = none) :
    group? text = none := by
  unfold group?
  unfold opening? at h
  cases hcut : cut '=' (firstPiece ',' text).1 with
  | none => rfl
  | some ab =>
    rw [hcut] at h
    by_cases hname : trim ab.1 = groupName
    · simp [hname] at h
    · simp [hname]

/-- A text whose first token opens a group begins with it. The group takes what the token has after
its equals sign and the assignments after the token. -/
theorem group?_of_opening {name options : List Char}
    (hcut : cut '=' (firstPiece ',' text).1 = some (name, options))
    (hname : trim name = groupName) :
    ∃ g after, group? text = some g ∧
      g.Spans text name (options ++ absorbedText (firstPiece ',' text).2) after ∧
      ofTokens (pieces ',' g.rest)
        = ofTokens ((pieces ',' (firstPiece ',' text).2).dropWhile Setting.isAssignment) := by
  obtain ⟨tail, hfollows, htext⟩ := exists_follows_firstPiece text
  obtain ⟨after, htail, hafter⟩ := absorb_follows (byteLength (firstPiece ',' text).1) _ hfollows
  obtain ⟨-, htoken⟩ := cut_eq_some_iff.1 hcut
  refine ⟨_, after, by simp only [group?, hcut, hname, if_true]; rfl, ?_, ofTokens_absorb _ _⟩
  constructor
  · calc text = (firstPiece ',' text).1 ++ tail := htext
      _ = name ++ '=' :: options ++ (absorbedText (firstPiece ',' text).2 ++ after) := by
        rw [htoken, htail]
      _ = _ := by simp
  · rw [byteLength_append]
    rfl
  · show (absorb _ _).1 = _
    rw [absorb_fst, ← byteLength_append, htoken]
    simp
  · exact hafter

/-! ### Whole texts -/

/-- The calls of a text are those of its first token, or of the group that it opens, and those of
what is left. -/
theorem scan_eq_ofTokens (text : List Char) : scan text = ofTokens (pieces ',' text) := by
  fun_induction scan text with
  | case1 => exact ofTokens_pieces_nil.symm
  | case2 text hne g hg ih =>
    -- a group in the text is one that the first token opens
    cases hopen : opening? (firstPiece ',' text).1 with
    | none => rw [group?_of_not_opening hopen] at hg; cases hg
    | some options =>
      obtain ⟨name, hcut, hname⟩ := cut_of_opening? hopen
      obtain ⟨g', after, hg', hspans, hrest⟩ := group?_of_opening hcut hname
      obtain rfl : g = g' := Option.some.inj (hg.symm.trans hg')
      have hcall : groupCall options
          ((pieces ',' (firstPiece ',' text).2).takeWhile Setting.isAssignment)
            = ⟨String.ofList groupName, String.ofList (g.options text)⟩ := by
        rw [groupCall, intercalate_cons, Group.options, hspans.slice_eq]
        rfl
      rw [ih, hrest, ← hcall]
      rcases pieces_eq_firstPiece ',' text with hp | ⟨hnil, hp⟩
      · rw [hp, ofTokens_group hopen]
      · -- the text ends with the opening token, and the group takes no other
        rw [hp, ofTokens_group hopen, hnil]
        exact congrArg _ (ofTokens_pieces_nil.trans ofTokens_nil.symm)
  | case3 text hne hg ih =>
    cases hopen : opening? (firstPiece ',' text).1 with
    | some options =>
      obtain ⟨name, hcut, hname⟩ := cut_of_opening? hopen
      obtain ⟨g, after, hg', -, -⟩ := group?_of_opening hcut hname
      rw [hg'] at hg; cases hg
    | none =>
      rw [ih]
      rcases pieces_eq_firstPiece ',' text with hp | ⟨hnil, hp⟩
      · rw [hp, ofTokens_plain hopen]
      · rw [hp, ofTokens_plain hopen, hnil, ofTokens_pieces_nil, ofTokens_nil]

theorem calls_eq_ofTokens (text : String) :
    (ofText text).calls = ofTokens (pieces ',' text.toList) :=
  scan_eq_ofTokens text.toList

/-! ### Every token once -/

theorem flatten_runs (tokens : List (List Char)) : (runs tokens).flatten = tokens := by
  fun_induction runs tokens with
  | case1 => rfl
  | case2 token rest h ih =>
    rw [List.flatten_cons, ih, List.cons_append, List.takeWhile_append_dropWhile]
  | case3 token rest h ih => rw [List.flatten_cons, ih, List.singleton_append]

theorem ofTokens_eq_filterMap (tokens : List (List Char)) :
    ofTokens tokens = (runs tokens).filterMap runCall? := by
  fun_induction runs tokens with
  | case1 => simp
  | case2 token rest h ih =>
    obtain ⟨options, hopen⟩ := Option.isSome_iff_exists.1 h
    rw [ofTokens_group hopen, ih]
    simp [runCall?, hopen]
  | case3 token rest h ih =>
    have hopen : opening? token = none := by simpa using h
    rw [ofTokens_plain hopen, ih, List.filterMap_cons, runCall?, hopen]
    cases plainCall? token <;> rfl

theorem plainCall?_eq_none_iff (token : List Char) :
    plainCall? token = none ↔ isNameless token = true := by
  unfold plainCall? isNameless firstPiece named
  cases cut '=' token <;> simp

theorem isNameless_of_opening? {token options : List Char} (h : opening? token = some options) :
    isNameless token = false := by
  obtain ⟨name, hcut, hname⟩ := cut_of_opening? h
  rw [isNameless, firstPiece, hcut]
  show (trim name).isEmpty = false
  rw [hname]
  rfl

/-- A run makes no call exactly where it is a single token without a name. -/
theorem runCall?_eq_none_iff {tokens : List (List Char)} : ∀ run ∈ runs tokens,
    (runCall? run = none ↔ ∃ token, run = [token] ∧ isNameless token = true) := by
  fun_induction runs tokens with
  | case1 => simp
  | case2 token rest h ih =>
    obtain ⟨options, hopen⟩ := Option.isSome_iff_exists.1 h
    intro run hrun
    rcases List.mem_cons.1 hrun with rfl | hrun
    · have hnamed := isNameless_of_opening? hopen
      constructor
      · intro hnone
        simp [runCall?, hopen] at hnone
      · rintro ⟨single, hsingle, hnameless⟩
        obtain ⟨rfl, -⟩ := List.cons.inj hsingle
        rw [hnamed] at hnameless
        cases hnameless
    · exact ih run hrun
  | case3 token rest h ih =>
    have hopen : opening? token = none := by simpa using h
    intro run hrun
    rcases List.mem_cons.1 hrun with rfl | hrun
    · rw [runCall?, hopen]
      simp [plainCall?_eq_none_iff]
    · exact ih run hrun

/-- **Rule texts are read by the grammar of their tokens.** The tokens are the pieces between the
commas. Each of them belongs to one run, in order, and a run makes one call, unless it is a single
token without a name. -/
theorem calls_ofText (text : String) :
    (ofText text).calls = ofTokens (pieces ',' text.toList) ∧
      (ofText text).calls = (runs (pieces ',' text.toList)).filterMap runCall? ∧
      (runs (pieces ',' text.toList)).flatten = pieces ',' text.toList ∧
      ∀ run ∈ runs (pieces ',' text.toList),
        (runCall? run = none ↔ ∃ token, run = [token] ∧ isNameless token = true) := by
  have hscan : (ofText text).calls = ofTokens (pieces ',' text.toList) := scan_eq_ofTokens _
  refine ⟨hscan, ?_, ?_, ?_⟩
  · rw [hscan, ofTokens_eq_filterMap]
  · exact flatten_runs _
  · exact runCall?_eq_none_iff

/-- A blank token between two commas makes no call. -/
theorem calls_ofText_blank : [[' ']] ∈ runs (pieces ',' "required, ,email".toList) ∧
    runCall? [[' ']] = none := by
  have hmem : [[' ']] ∈ runs (pieces ',' "required, ,email".toList) := by decide +kernel
  exact ⟨hmem, ((calls_ofText "required, ,email").2.2.2 _ hmem).2 ⟨[' '], rfl, rfl⟩⟩

end RecordRules.Spec
