/-
A weak password is told the first requirement that it does not meet.

The check stops at a password that is too short and goes through the classes after that. Seen as a
search through the five requirements of a policy in their order, it stops at the first one that is
not met, and passes a password that meets them all.

* **`Policy.toFailure_weaknessOf`** — a weakness is reported as the requirement behind it;
* **`Policy.failure?_password`** — what the check reports is what the search finds;
* **`Policy.names_first_unmet`** — so it passes what meets all requirements, and names the first one
  of those that are not met.
-/
import RecordRules.Password.Requirement
import RecordRules.Rule

namespace RecordRules.Password

/-! ### Texts -/

theorem Weakness.message_tooShort (min : UInt64) (actual : Nat) :
    (tooShort min actual).message
      = "password must have a minimum length of " ++ Decimal.ofNat min.toNat ++ " characters" := rfl

theorem Weakness.message_lacks (c : CharClass) :
    (lacks c).message = "password must contain at least one " ++ c.noun := by
  cases c <;> decide

theorem Weakness.requirement_lacks (c : CharClass) :
    (lacks c).requirement = (Setting.requires c).word := by
  cases c <;> rfl

namespace Policy

variable (p : Policy) (password : String)

/-- What a password lacks that does not meet a requirement. -/
def weaknessOf : Setting → Weakness
  | .minLength => .tooShort p.minLength password.toList.length
  | .requires c => .lacks c

theorem toFailure_weaknessOf (s : Setting) :
    (p.weaknessOf password s).toFailure = p.complaint password.toList s := by
  cases s with
  | minLength =>
    simp only [weaknessOf, Weakness.toFailure, Failure.of, Failure.withParam,
      Weakness.message_tooShort, Decimal.ofNat_eq_repr]
    rfl
  | requires c =>
    simp only [weaknessOf, Weakness.toFailure, Failure.of, Failure.withParam,
      Weakness.message_lacks, Weakness.requirement_lacks]
    rfl

/-! ### The search -/

theorem not_meets_requires (c : CharClass) :
    (p.requires c && !password.toList.any c.has)
      = decide (¬ p.Meets password.toList (.requires c)) := by
  rw [Bool.eq_iff_iff, decide_eq_true_iff]
  simp [Meets, CharClass.has_iff]

/-- The check is a search for the first requirement that is not met. -/
theorem weakness?_eq_unmet? :
    p.weakness? password = (p.unmet? password.toList).map (p.weaknessOf password) := by
  rw [weakness?, unmet?, Setting.all, List.find?_cons, List.find?_map]
  by_cases hlength : password.toList.length < p.minLength.toNat
  · have hunmet : ¬ p.Meets password.toList .minLength := Nat.not_le.2 hlength
    rw [if_pos hlength, decide_eq_true hunmet]
    rfl
  · have hmet : p.Meets password.toList .minLength := Nat.not_lt.1 hlength
    rw [if_neg hlength, decide_eq_false fun h => h hmet]
    simp only [Function.comp_def, ← not_meets_requires, Option.map_map]
    rfl

/-- What the check reports is what the search finds. -/
theorem failure?_password :
    (Rule.password p).failure? (.text password)
      = (p.unmet? password.toList).map (p.complaint password.toList) := by
  have hcheck : (Rule.password p).failure? (.text password)
      = (p.weakness? password).map Weakness.toFailure := by
    show ((p.weakness? password).map Violation.weakPassword).map Violation.toFailure = _
    rw [Option.map_map]
    rfl
  rw [hcheck, weakness?_eq_unmet?, Option.map_map]
  exact Option.map_congr fun s _ => p.toFailure_weaknessOf password s

/-- **A weak password is told the first requirement that it does not meet.** A password passes
exactly where it has enough characters and one of every class that the policy asks for. Where it
does not, the failure names a requirement that is not met, and every requirement before it is. -/
theorem names_first_unmet :
    ((Rule.password p).failure? (.text password) = none ↔
        p.minLength.toNat ≤ password.toList.length ∧
          (p.digits = true → ∃ c ∈ password.toList, c ∈ Text.digits) ∧
          (p.uppercase = true → ∃ c ∈ password.toList, c ∈ Text.capitalLetters) ∧
          (p.lowercase = true → ∃ c ∈ password.toList, c ∈ Text.smallLetters) ∧
          (p.special = true → ∃ c ∈ password.toList, c ∈ specialChars.toList)) ∧
      ∀ failure ∈ (Rule.password p).failure? (.text password),
        ∃ earlier unmet later, Setting.all = earlier ++ unmet :: later ∧
          (∀ s ∈ earlier, p.Meets password.toList s) ∧ ¬ p.Meets password.toList unmet ∧
          failure = p.complaint password.toList unmet := by
  rw [failure?_password]
  refine ⟨?_, ?_⟩
  · rw [Option.map_eq_none_iff, unmet?_eq_none_iff]
    constructor
    · intro h
      exact ⟨h .minLength, h (.requires .digit), h (.requires .uppercase), h (.requires .lowercase),
        h (.requires .special)⟩
    · rintro ⟨hlength, hdigit, huppercase, hlowercase, hspecial⟩ s
      match s with
      | .minLength => exact hlength
      | .requires .digit => exact hdigit
      | .requires .uppercase => exact huppercase
      | .requires .lowercase => exact hlowercase
      | .requires .special => exact hspecial
  · intro failure hfailure
    obtain ⟨unmet, hunmet, rfl⟩ := Option.map_eq_some_iff.1 hfailure
    obtain ⟨hnot, earlier, later, hall, hmet⟩ := unmet?_eq_some_iff.1 hunmet
    exact ⟨earlier, unmet, later, hall, hmet, hnot, rfl⟩

/-- A password whose umlauts count as characters, and as letters of neither case. -/
theorem names_first_unmet_umlauts :
    let failure := standard.complaint "ÄÖÜ-1234".toList (.requires .uppercase)
    failure ∈ (Rule.password .standard).failure? (.text "ÄÖÜ-1234") ∧
      ∃ earlier unmet later, Setting.all = earlier ++ unmet :: later ∧
        (∀ s ∈ earlier, standard.Meets "ÄÖÜ-1234".toList s) ∧
        ¬ standard.Meets "ÄÖÜ-1234".toList unmet ∧
        failure = standard.complaint "ÄÖÜ-1234".toList unmet := by
  intro failure
  have h : failure ∈ (Rule.password .standard).failure? (.text "ÄÖÜ-1234") := by decide +kernel
  exact ⟨h, (names_first_unmet standard "ÄÖÜ-1234").2 failure h⟩

end Policy

end RecordRules.Password
