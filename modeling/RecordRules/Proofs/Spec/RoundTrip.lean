/-
Rule texts make exactly the well-formed calls.

* **`Assigns.trimEnds`** — dropping commas and blanks at the ends of a group leaves assignments
  after its first comma;
* **`wellFormed_of_mem_ofTokens`** — the calls of tokens are well formed;
* **`ofTokens_write`** — the tokens of a written call make that call, whatever other tokens follow,
  unless the next one is an assignment;
* **`ofText_write_calls`** — writing calls and reading the text gives the calls back.
-/
import RecordRules.Proofs.Spec.Concatenation

namespace RecordRules.Spec

open Text Password

/-! ### Parts that assign a setting -/

/-- Every part after the first comma assigns a setting. -/
def Assigns (s : List Char) : Prop :=
  ∀ part ∈ (pieces ',' s).tail, Setting.isAssignment part = true

/-- A token stays an assignment without its last character, if that is no equals sign. -/
theorem isAssignment_of_concat {token : List Char} {c : Char} (hc : c ≠ '=')
    (h : Setting.isAssignment (token ++ [c]) = true) : Setting.isAssignment token = true := by
  obtain ⟨key, value, htoken, hkey, hsetting⟩ := Setting.isAssignment_iff.1 h
  refine Setting.isAssignment_iff.2 ⟨key, value.dropLast, ?_, hkey, hsetting⟩
  rcases List.eq_nil_or_concat value with rfl | ⟨value, d, rfl⟩
  · -- the last character would be the equals sign
    have hlast := congrArg List.getLast? htoken
    simp at hlast
    exact absurd hlast hc
  · -- the last character is the value's, and no equals sign moves
    rw [List.concat_eq_append, ← List.cons_append, ← List.append_assoc] at htoken
    rw [List.concat_eq_append, List.dropLast_concat]
    exact (List.append_inj' htoken rfl).1

theorem isGroupEnd_ne_equals {c : Char} (h : isGroupEnd c = true) : c ≠ '=' := by
  rintro rfl
  exact absurd h (by decide)

theorem Assigns.of_cons {c : Char} {s : List Char} (h : Assigns (c :: s)) : Assigns s := by
  unfold Assigns at h ⊢
  by_cases hc : c = ','
  · rw [hc, pieces_cons_self, List.tail_cons] at h
    exact fun part hpart => h part (List.mem_of_mem_tail hpart)
  · obtain ⟨piece, more, hs, hcs⟩ := pieces_cons_of_ne hc s
    rw [hcs, List.tail_cons] at h
    rwa [hs, List.tail_cons]

theorem Assigns.of_append {a s : List Char} (h : Assigns (a ++ s)) : Assigns s := by
  induction a with
  | nil => exact h
  | cons c a ih => exact ih h.of_cons

theorem Assigns.of_concat {s : List Char} {c : Char} (hc : isGroupEnd c = true)
    (h : Assigns (s ++ [c])) : Assigns s := by
  unfold Assigns at h ⊢
  by_cases hcomma : c = ','
  · -- a comma at the end would leave an empty part after it, which is no assignment
    rw [hcomma, pieces_append_cons] at h
    have hnil := h [] (by
      obtain ⟨first, more, hs⟩ := List.exists_cons_of_ne_nil (pieces_ne_nil ',' s)
      simp [hs])
    cases hnil
  · obtain ⟨init, last, hs, hsc⟩ := pieces_concat_of_ne hcomma s
    rw [hs]
    rw [hsc] at h
    cases init with
    | nil => simp
    | cons first init =>
      simp only [List.cons_append, List.tail_cons, List.mem_append, List.mem_singleton] at h ⊢
      rintro part (hpart | rfl)
      · exact h part (.inl hpart)
      · exact isAssignment_of_concat (isGroupEnd_ne_equals hc) (h _ (.inr rfl))

theorem Assigns.of_append_ends {s b : List Char} (hb : ∀ c ∈ b, isGroupEnd c = true)
    (h : Assigns (s ++ b)) : Assigns s := by
  -- the last character goes first, so the text that stays grows
  induction b generalizing s with
  | nil => simpa using h
  | cons c b ih =>
    have hs : Assigns (s ++ [c]) := ih (fun d hd => hb d (by simp [hd])) (by simpa using h)
    exact hs.of_concat (hb c (by simp))

theorem Assigns.trimEnds {s : List Char} (h : Assigns s) : Assigns (trimEnds isGroupEnd s) := by
  obtain ⟨a, b, -, hb, hs⟩ := exists_append_trimEnds isGroupEnd s
  rw [hs] at h
  exact (Assigns.of_append_ends hb h).of_append

/-! ### Calls of rule texts are well formed -/

theorem wellFormed_of_named {name options : List Char} {c : Call} (h : named name options = some c)
    (hname : trim name = name) (hcomma : ',' ∉ name) (hequals : '=' ∉ name)
    (hgroup : name ≠ groupName ∨ options = []) (hoptions : trim options = options)
    (hfree : ',' ∉ options) : c.WellFormed := by
  unfold named at h
  split at h
  · cases h
  · next hne =>
    cases h
    constructor <;> simp only [String.toList_ofList]
    · exact hne
    · exact hname
    · exact hcomma
    · exact hequals
    · exact fun _ => ⟨hoptions, hfree⟩
    · intro hgroupName
      rcases hgroup with hnot | rfl
      · exact absurd hgroupName hnot
      · simp

/-- A token that opens no group makes a well-formed call. -/
theorem wellFormed_of_plainCall? {token : List Char} {c : Call} (hcomma : ',' ∉ token)
    (hopen : opening? token = none) (h : plainCall? token = some c) : c.WellFormed := by
  unfold plainCall? at h
  cases hcut : cut '=' token with
  | none =>
    rw [hcut] at h
    have hequals := cut_eq_none_iff.1 hcut
    refine wellFormed_of_named h (trimEnds_trimEnds token) ?_ ?_ (.inr rfl) rfl (by simp)
    · intro hm
      exact hcomma (mem_of_mem_trimEnds hm)
    · intro hm
      exact hequals (mem_of_mem_trimEnds hm)
  | some pair =>
    obtain ⟨name, options⟩ := pair
    rw [hcut] at h
    obtain ⟨hequals, rfl⟩ := cut_eq_some_iff.1 hcut
    have hgroup : trim name ≠ groupName := by
      intro hname
      simp [opening?, hcut, hname] at hopen
    refine wellFormed_of_named h (trimEnds_trimEnds name) ?_ ?_ (.inl hgroup)
      (trimEnds_trimEnds options) ?_
    · intro hm
      exact hcomma (by simp [mem_of_mem_trimEnds hm])
    · intro hm
      exact hequals (mem_of_mem_trimEnds hm)
    · intro hm
      exact hcomma (by simp [mem_of_mem_trimEnds hm])

theorem wellFormed_groupCall {options : List Char} {absorbed : List (List Char)}
    (hoptions : ',' ∉ options) (hcomma : ∀ token ∈ absorbed, ',' ∉ token)
    (hassign : ∀ token ∈ absorbed, Setting.isAssignment token = true) :
    (groupCall options absorbed).WellFormed := by
  have hpieces : pieces ',' ([','].intercalate (options :: absorbed)) = options :: absorbed := by
    refine pieces_intercalate (by simp) ?_
    intro token htoken
    rcases List.mem_cons.1 htoken with rfl | htoken
    · exact hoptions
    · exact hcomma token htoken
  have hassigns : Assigns ([','].intercalate (options :: absorbed)) := by
    unfold Assigns
    rw [hpieces]
    exact hassign
  -- the name is always the same word
  constructor <;> simp only [groupCall, String.toList_ofList]
  · decide
  · decide
  · decide
  · decide
  · intro hne
    exact absurd rfl hne
  · intro _
    exact ⟨trimEnds_trimEnds _, hassigns.trimEnds⟩

/-- The calls of tokens without commas are well formed. -/
theorem wellFormed_of_mem_ofTokens {tokens : List (List Char)}
    (h : ∀ token ∈ tokens, ',' ∉ token) : ∀ c ∈ ofTokens tokens, c.WellFormed := by
  fun_induction ofTokens tokens with
  | case1 => simp
  | case2 token rest options hopen ih =>
    have hrest : ∀ token ∈ rest, ',' ∉ token := fun token hm => h token (by simp [hm])
    obtain ⟨name, hcut, -⟩ := cut_of_opening? hopen
    obtain ⟨-, rfl⟩ := cut_eq_some_iff.1 hcut
    intro c hc
    rcases List.mem_cons.1 hc with rfl | hc
    · refine wellFormed_groupCall ?_ ?_ ?_
      · intro hm
        exact h _ List.mem_cons_self (by simp [hm])
      · intro token hm
        exact hrest token (List.takeWhile_subset _ hm)
      · intro token hm
        exact List.all_eq_true.1 List.all_takeWhile token hm
    · exact ih (fun token hm => hrest token (List.dropWhile_subset _ hm)) c hc
  | case3 token rest hopen ih =>
    intro c hc
    rcases List.mem_append.1 hc with hc | hc
    · rw [Option.mem_toList] at hc
      exact wellFormed_of_plainCall? (h token List.mem_cons_self) hopen hc
    · exact ih (fun token hm => h token (by simp [hm])) c hc

theorem wellFormed_of_mem_calls (text : String) : ∀ c ∈ (ofText text).calls, c.WellFormed := by
  rw [calls_eq_ofTokens]
  exact wellFormed_of_mem_ofTokens fun token htoken => not_mem_of_mem_pieces htoken

/-! ### Written calls -/

namespace Call

theorem eq_of_toList {c : Call} {name options : List Char} (hname : c.name.toList = name)
    (hoptions : c.options.toList = options) : ⟨String.ofList name, String.ofList options⟩ = c := by
  subst hname hoptions
  simp

theorem write_of_options_nil {c : Call} (h : c.options.toList = []) : c.write = c.name.toList := by
  have hempty : c.options.isEmpty = true := by simpa using h
  rw [write, if_pos hempty]

theorem write_of_options_ne {c : Call} (h : c.options.toList ≠ []) :
    c.write = c.name.toList ++ '=' :: c.options.toList := by
  have hempty : ¬ c.options.isEmpty = true := by simpa using h
  rw [write, if_neg hempty]

end Call

theorem named_eq {c : Call} (h : c.WellFormed) : named c.name.toList c.options.toList = some c := by
  rw [named, if_neg h.name_ne, Call.eq_of_toList rfl rfl]

/-- A call that is no group's, or has no options, is written as one token that makes it. -/
theorem plainCall?_write {c : Call} (h : c.WellFormed)
    (hplain : c.name.toList ≠ groupName ∨ c.options.toList = []) :
    ',' ∉ c.write ∧ opening? c.write = none ∧ plainCall? c.write = some c := by
  by_cases hopt : c.options.toList = []
  · have hcut : cut '=' c.name.toList = none := cut_eq_none_iff.2 h.equals_not_mem_name
    -- the password rule without options has no equals sign, so its token opens no group
    rw [Call.write_of_options_nil hopt]
    refine ⟨h.comma_not_mem_name, by rw [opening?, hcut]; rfl, ?_⟩
    rw [plainCall?, hcut]
    show named (trim c.name.toList) [] = some c
    rw [h.name_trim, ← hopt, named_eq h]
  · have hname : c.name.toList ≠ groupName := hplain.resolve_right hopt
    obtain ⟨htrim, hfree⟩ := h.plain_options hname
    have hcut : cut '=' (c.name.toList ++ '=' :: c.options.toList)
        = some (c.name.toList, c.options.toList) := cut_append_cons h.equals_not_mem_name
    rw [Call.write_of_options_ne hopt]
    refine ⟨by simp [h.comma_not_mem_name, hfree], ?_, ?_⟩
    · simp [opening?, hcut, h.name_trim, hname]
    · rw [plainCall?, hcut]
      show named (trim c.name.toList) (trim c.options.toList) = some c
      rw [h.name_trim, htrim, named_eq h]

/-- A group's call is written as an opening token and assignments, and makes the call. -/
theorem groupCall_write {c : Call} (h : c.WellFormed) (hname : c.name.toList = groupName)
    (hopt : c.options.toList ≠ []) :
    ∃ token options more, pieces ',' c.write = token :: more ∧ opening? token = some options ∧
      (∀ part ∈ more, Setting.isAssignment part = true) ∧ groupCall options more = c := by
  obtain ⟨htrim, hassign⟩ := h.group_options hname
  obtain ⟨options, more, hpieces⟩ := List.exists_cons_of_ne_nil (pieces_ne_nil ',' c.options.toList)
  have hopening : ',' ∉ groupName ++ ['='] := by decide
  refine ⟨groupName ++ '=' :: options, options, more, ?_, ?_, ?_, ?_⟩
  · have hwrite := pieces_append_of_not_mem hopening hpieces
    rw [Call.write_of_options_ne hopt, hname]
    simpa using hwrite
  · have hcut : cut '=' (groupName ++ '=' :: options) = some (groupName, options) :=
      cut_append_cons (by decide)
    rw [opening?, hcut]
    rfl
  · rw [hpieces] at hassign
    exact hassign
  · have hjoin := intercalate_pieces ',' c.options.toList
    rw [hpieces] at hjoin
    rw [groupCall, hjoin, htrim]
    exact Call.eq_of_toList hname rfl

/-- The tokens of a written call make that call, whatever tokens follow, unless the next one is an
assignment. -/
theorem ofTokens_write {c : Call} (h : c.WellFormed) {rest : List (List Char)}
    (hrest : ∀ token ∈ rest.head?, Setting.isAssignment token = false) :
    ofTokens (pieces ',' c.write ++ rest) = c :: ofTokens rest := by
  by_cases hplain : c.name.toList ≠ groupName ∨ c.options.toList = []
  · obtain ⟨hcomma, hopen, hcall⟩ := plainCall?_write h hplain
    rw [pieces_of_not_mem hcomma, List.singleton_append, ofTokens_plain hopen, hcall]
    rfl
  · rw [not_or, Classical.not_not] at hplain
    obtain ⟨hname, hopt⟩ := hplain
    obtain ⟨token, options, more, hpieces, hopen, hmore, hcall⟩ := groupCall_write h hname hopt
    rw [hpieces, List.cons_append, ofTokens_group_append hopen hmore hrest, hcall]

theorem ofTokens_empty (rest : List (List Char)) : ofTokens ([] :: rest) = ofTokens rest := by
  rw [ofTokens_plain rfl]
  rfl

theorem pieces_write_cons (c : Call) {calls : List Call} (h : calls ≠ []) :
    pieces ',' (write (c :: calls)) = pieces ',' c.write ++ [] :: pieces ',' (write calls) := by
  have hmap : calls.map Call.write ≠ [] := by simpa using h
  rw [write, List.map_cons, List.intercalate_cons_of_ne_nil hmap, List.append_assoc]
  show pieces ',' (c.write ++ ',' :: ',' :: write calls) = _
  rw [pieces_append_cons, pieces_cons_self]

theorem ofTokens_write_calls {calls : List Call} (h : ∀ c ∈ calls, c.WellFormed) :
    ofTokens (pieces ',' (write calls)) = calls := by
  induction calls with
  | nil => exact ofTokens_pieces_nil
  | cons c calls ih =>
    have hc := h c List.mem_cons_self
    have hcalls := ih fun d hd => h d (List.mem_cons_of_mem _ hd)
    by_cases hne : calls = []
    · have hwrite : write [c] = c.write := List.intercalate_singleton
      have htokens : ofTokens (pieces ',' c.write ++ []) = c :: ofTokens [] :=
        ofTokens_write hc (by simp)
      rw [hne, hwrite]
      simpa using htokens
    · -- the empty token between the calls is no assignment, and makes no call itself
      rw [pieces_write_cons c hne, ofTokens_write hc (by simp [Setting.isAssignment, cut]),
        ofTokens_empty, hcalls]

theorem ofText_write {calls : List Call} (h : ∀ c ∈ calls, c.WellFormed) :
    ofText (String.ofList (write calls)) = ⟨calls⟩ := by
  rw [ofText, String.toList_ofList, scan_eq_ofTokens, ofTokens_write_calls h]

/-- **Rule texts make exactly the well-formed calls.** Every call of a text is well formed, and
well-formed calls are those of the text that writes them. So a text can be read, written and read
again without a change. -/
theorem ofText_write_calls :
    (∀ text, ∀ c ∈ (ofText text).calls, c.WellFormed) ∧
      (∀ calls : List Call, (∀ c ∈ calls, c.WellFormed) →
        ofText (String.ofList (write calls)) = ⟨calls⟩) ∧
      ∀ text, ofText (String.ofList (write (ofText text).calls)) = ofText text := by
  refine ⟨wellFormed_of_mem_calls, ?_, ?_⟩
  · intro calls h
    exact ofText_write h
  · intro text
    exact ofText_write (wellFormed_of_mem_calls text)

/-- A password group and a length rule after it are read back as two calls. -/
theorem ofText_write_group :
    ofText "password=min_length=6,,min_length=3"
      = ⟨[⟨"password", "min_length=6"⟩, ⟨"min_length", "3"⟩]⟩ := by
  have hcalls : ∀ c ∈ [(⟨"password", "min_length=6"⟩ : Call), ⟨"min_length", "3"⟩],
      c.WellFormed := by
    intro c hc
    simp only [List.mem_cons, List.not_mem_nil, or_false] at hc
    rcases hc with rfl | rfl <;> constructor <;> decide +kernel
  have hwrite : "password=min_length=6,,min_length=3"
      = String.ofList (write [⟨"password", "min_length=6"⟩, ⟨"min_length", "3"⟩]) := by
    decide +kernel
  rw [hwrite]
  exact ofText_write_calls.2.1 _ hcalls

end RecordRules.Spec
