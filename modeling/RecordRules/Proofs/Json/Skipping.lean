/-
Skipping goes over one value, whole.

The induction is on the grammar. What a rule writes is passed from where its first token is due to
behind its last one, whatever brackets are open there and whatever comes after.

* **`Passed.list`**, **`Passed.object`** — brackets are passed if all between them is;
* **`Passed.of_isValue`** — so every value is passed, at any depth;
* **`skip_value`** — and what is left after skipping a value is all that comes after it.
-/
import RecordRules.Json.Skip
import RecordRules.Proofs.Json.Lexing

namespace RecordRules.Json

variable {stack stack' : List Bracket} {place place' : Place} {token : Token}

/-! ### One token at a time -/

theorem skipFrom_cons (h : place.over stack token = .ok (place', stack')) (ts : List Token) :
    skipFrom place stack (token :: ts) = skipFrom place' stack' ts := by
  rw [skipFrom, h]
  -- nothing is due after a whole value
  rintro rfl rfl
  cases h

/-- The places where a value may stand. -/
def Place.IsForValue (place : Place) : Prop := place = value ∨ place = firstItem

/-- The places where a key may stand. -/
def Place.IsForKey (place : Place) : Prop := place = key ∨ place = firstKey

theorem skipFrom_scalar (hplace : place.IsForValue)
    (h : Place.overValue stack token = .ok (place', stack')) (ts : List Token) :
    skipFrom place stack (token :: ts) = skipFrom place' stack' ts := by
  refine skipFrom_cons ?_ ts
  rcases hplace with rfl | rfl
  · exact h
  · rw [Place.over]
    · exact h
    · rintro _ - rfl
      cases h

theorem skipFrom_key (hplace : place.IsForKey)
    (h : Place.overKey stack token = .ok (place', stack')) (ts : List Token) :
    skipFrom place stack (token :: ts) = skipFrom place' stack' ts := by
  refine skipFrom_cons ?_ ts
  rcases hplace with rfl | rfl
  · exact h
  · rw [Place.over]
    · exact h
    · rintro _ - rfl
      cases h

/-! ### What is passed -/

/-- A text that a skipper goes over where a value is due. -/
def Passed (v : List Char) : Prop :=
  ∀ (place : Place) (stack : List Bracket) (rest : List Char), place.IsForValue → Ends rest →
    skipFrom place stack (tokens (v ++ rest)) = skipFrom .after stack (tokens rest)

/-- What a skipper goes over between the brackets of a list, to behind the closing one. -/
def PassedItems (s : List Char) : Prop :=
  ∀ (place : Place) (stack : List Bracket) (rest : List Char), place.IsForValue →
    skipFrom place (.square :: stack) (tokens (s ++ ']' :: rest)) = skipFrom .after stack (tokens rest)

/-- A text that a skipper goes over where a key is due. -/
def PassedMember (s : List Char) : Prop :=
  ∀ (place : Place) (stack : List Bracket) (rest : List Char), place.IsForKey → Ends rest →
    skipFrom place stack (tokens (s ++ rest)) = skipFrom .after stack (tokens rest)

/-- What a skipper goes over between the brackets of an object, to behind the closing one. -/
def PassedMembers (s : List Char) : Prop :=
  ∀ (place : Place) (stack : List Bracket) (rest : List Char), place.IsForKey →
    skipFrom place (.curly :: stack) (tokens (s ++ '\x7d' :: rest))
      = skipFrom .after stack (tokens rest)

namespace Passed

variable {v s t : List Char}

theorem null : Passed "null".toList := by
  intro place stack rest hplace _
  rw [tokens_null, skipFrom_scalar hplace rfl]

theorem true : Passed "true".toList := by
  intro place stack rest hplace _
  rw [tokens_true, skipFrom_scalar hplace rfl]

theorem false : Passed "false".toList := by
  intro place stack rest hplace _
  rw [tokens_false, skipFrom_scalar hplace rfl]

theorem number (h : IsNumber v) : Passed v := by
  intro place stack rest hplace hrest
  obtain ⟨token, htokens, rfl | ⟨n, rfl⟩, -⟩ := tokens_number h hrest
  · rw [htokens, skipFrom_scalar hplace rfl]
  · rw [htokens, skipFrom_scalar hplace rfl]

theorem text {w : List Char} (h : IsQuoted w) : Passed (quoted w) := by
  intro place stack rest hplace _
  obtain ⟨t, -, htokens⟩ | ⟨-, htokens⟩ := tokens_quoted h rest
  · rw [htokens, skipFrom_scalar hplace rfl]
  · rw [htokens, skipFrom_scalar hplace rfl]

theorem emptyList (h : IsBlanks s) : Passed ('[' :: s ++ [']']) := by
  intro place stack rest hplace _
  simp only [List.cons_append, List.append_assoc, List.nil_append, tokens_opening_square]
  rw [skipFrom_scalar hplace rfl, tokens_blanks h, tokens_closing_square, skipFrom_cons rfl]

theorem list (h : PassedItems s) : Passed ('[' :: s ++ [']']) := by
  intro place stack rest hplace _
  simp only [List.cons_append, List.append_assoc, List.nil_append, tokens_opening_square]
  rw [skipFrom_scalar hplace rfl]
  exact h .firstItem stack rest (.inr rfl)

theorem lastItem (h : Passed v) (pad : Padded v s) : PassedItems s := by
  intro place stack rest hplace
  obtain ⟨rest', htokens, hrest, hends⟩ := pad.exists_tokens (.of_head ']' (by simp) rest)
  rw [htokens, h place _ rest' hplace hends, hrest, tokens_closing_square, skipFrom_cons rfl]

theorem item (h : Passed v) (pad : Padded v s) (more : PassedItems t) :
    PassedItems (s ++ ',' :: t) := by
  intro place stack rest hplace
  rw [List.append_assoc, List.cons_append]
  obtain ⟨rest', htokens, hrest, hends⟩ := pad.exists_tokens (.of_head ',' (by simp) _)
  rw [htokens, h place _ rest' hplace hends, hrest, tokens_comma, skipFrom_cons rfl]
  exact more .value stack rest (.inl rfl)

theorem emptyObject (h : IsBlanks s) : Passed ('\x7b' :: s ++ ['\x7d']) := by
  intro place stack rest hplace _
  simp only [List.cons_append, List.append_assoc, List.nil_append, tokens_opening_curly]
  rw [skipFrom_scalar hplace rfl, tokens_blanks h, tokens_closing_curly, skipFrom_cons rfl]

theorem object (h : PassedMembers s) : Passed ('\x7b' :: s ++ ['\x7d']) := by
  intro place stack rest hplace _
  simp only [List.cons_append, List.append_assoc, List.nil_append, tokens_opening_curly]
  rw [skipFrom_scalar hplace rfl]
  exact h .firstKey stack rest (.inr rfl)

theorem lastMember (h : PassedMember s) : PassedMembers s := by
  intro place stack rest hplace
  rw [h place _ _ hplace (.of_head '\x7d' (by simp) rest), tokens_closing_curly, skipFrom_cons rfl]

theorem member (h : PassedMember s) (more : PassedMembers t) : PassedMembers (s ++ ',' :: t) := by
  intro place stack rest hplace
  rw [List.append_assoc, List.cons_append, h place _ _ hplace (.of_head ',' (by simp) _),
    tokens_comma, skipFrom_cons rfl]
  exact more .key stack rest (.inl rfl)

theorem keyed {w : List Char} (key : IsQuoted w) (value : Passed v) (padKey : Padded (quoted w) s)
    (padValue : Padded v t) : PassedMember (s ++ ':' :: t) := by
  intro place stack rest hplace hends
  obtain ⟨rest', hrest, hends', hkey⟩ := tokens_keyed key padKey padValue hends
  have hvalue := value .value stack rest' (.inl rfl) hends'
  obtain ⟨k, -, htokens⟩ | ⟨-, htokens⟩ := hkey
  · rw [htokens, skipFrom_key hplace rfl, skipFrom_cons rfl, hvalue, hrest]
  · rw [htokens, skipFrom_key hplace rfl, skipFrom_cons rfl, hvalue, hrest]

/-- Every value is passed. -/
theorem of_isValue (h : IsValue v) : Passed v :=
  @IsValue.rec (fun v _ => Passed v) (fun _ v _ => Passed v) (fun _ s _ => PassedItems s)
    (fun _ v _ => Passed v) (fun _ s _ => PassedMembers s) (fun _ s _ => PassedMember s)
    null true false number text (fun _ ih => ih) (fun _ ih => ih)
    emptyList (fun _ ih => list ih) (fun _ pad ih => lastItem ih pad)
    (fun _ pad _ ih more => item ih pad more)
    emptyObject (fun _ ih => object ih) (fun _ ih => lastMember ih)
    (fun _ _ ih more => member ih more)
    (fun key _ padKey padValue ih => keyed key ih padKey padValue) v h

end Passed

/-- After skipping a value, all that comes after it is left. -/
theorem skip_value {v rest : List Char} (h : IsValue v) (hrest : Ends rest) :
    skip (tokens (v ++ rest)) = .ok (tokens rest) := by
  rw [skip, Passed.of_isValue h .value [] rest (.inl rfl) hrest, skipFrom_after_nil]

end RecordRules.Json
