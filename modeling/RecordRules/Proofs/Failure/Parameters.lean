/-
Parameters of failures, looked up and in JSON.

A key can be given twice. A lookup then finds the first value and the JSON form has the last one,
so the two need not agree. But no failure that rules, rule texts and validations make repeats a key:
the keys are the few words of one constructor each, and nothing that is done to a failure afterwards
adds a parameter.

* **`Failure.param?_eq`**, **`Failure.jsonParam?_eq`** — the first and the last of the values that
  were given for a key;
* **`Failure.ToldAlike.of_keys_nodup`** — without repeated keys there is one value at most;
* **`Finding.toldAlike`** — what a check finds has no repeated keys;
* **`Failure.params_told_alike`** — so all failures tell their parameters alike in both ways.
-/
import Mathlib.Data.List.Nodup
import RecordRules.Proofs.Pass.Enumeration

namespace RecordRules

namespace Failure

/-! ### Values of a key -/

/-- The failure with more parameters, given one after another. -/
def withParams (f : Failure) (params : List (String × String)) : Failure :=
  params.foldl (fun f (key, value) => f.withParam key value) f

/-- The values given for a key, in order. -/
def valuesFor (key : String) (params : List (String × String)) : List String :=
  params.filterMap fun (k, value) => if k = key then some value else none

/-- The value of a parameter in the JSON form of a failure. -/
def jsonParam? (f : Failure) (key : String) : Option Json :=
  (f.toJson.get? "params").bind (·.get? key)

variable {f : Failure} {key : String}

theorem params_withParams (f : Failure) (params : List (String × String)) :
    (f.withParams params).params = f.params ++ params := by
  induction params generalizing f with
  | nil => simp [withParams]
  | cons param params ih =>
    obtain ⟨k, value⟩ := param
    show ((f.withParam k value).withParams params).params = _
    rw [ih]
    simp [withParam]

theorem lookup_eq_head? (key : String) (params : List (String × String)) :
    params.lookup key = (valuesFor key params).head? := by
  rw [List.lookup_eq_findSome?, valuesFor, List.head?_filterMap]
  refine congrArg (params.findSome? ·) (funext fun param => ?_)
  simp only [beq_iff_eq, @eq_comm _ key]

theorem valuesFor_reverse (key : String) (params : List (String × String)) :
    valuesFor key params.reverse = (valuesFor key params).reverse := List.filterMap_reverse

theorem param?_eq (f : Failure) (key : String) :
    f.param? key = (valuesFor key f.params).head? := lookup_eq_head? key f.params

theorem jsonParam?_eq (f : Failure) (key : String) :
    f.jsonParam? key = (valuesFor key f.params).getLast?.map .text := by
  have hobject : f.toJson.get? "params" = some f.paramObject := rfl
  rw [jsonParam?, hobject, Option.bind_some, get?_paramObject, lookup_eq_head?, valuesFor_reverse,
    List.head?_reverse]

/-- A key that is given twice is told in two ways. -/
example :
    let f := (of "min_length" "too short").withParams [("min", "1"), ("min", "2")]
    f.param? "min" = some "1" ∧ f.jsonParam? "min" = some (.text "2") := ⟨rfl, rfl⟩

theorem length_valuesFor (key : String) (params : List (String × String)) :
    (valuesFor key params).length = (params.map Prod.fst).count key := by
  rw [valuesFor, List.length_filterMap_eq_countP, List.count, List.countP_map]
  refine List.countP_congr ?_
  intro param _
  by_cases hk : param.1 = key <;> simp [hk]

/-! ### One value for each key -/

/-- A failure that tells its parameters alike when they are looked up and in JSON: no key is
repeated, each is there in both or in neither, with the same text, and no parameter is lost. -/
structure ToldAlike (f : Failure) : Prop where
  keys_nodup : (f.params.map Prod.fst).Nodup
  jsonParam?_eq_param? : ∀ key, f.jsonParam? key = (f.param? key).map .text
  told : ∀ key value, (key, value) ∈ f.params → f.jsonParam? key = some (.text value)

theorem ToldAlike.of_keys_nodup (h : (f.params.map Prod.fst).Nodup) : f.ToldAlike := by
  have hlength : ∀ key, (valuesFor key f.params).length ≤ 1 := by
    intro key
    rw [length_valuesFor]
    exact List.nodup_iff_count_le_one.1 h key
  refine ⟨h, ?_, ?_⟩
  · intro key
    rw [jsonParam?_eq, param?_eq]
    -- of one value at most, the first is the last
    match valuesFor key f.params, hlength key with
    | [], _ => rfl
    | [value], _ => rfl
  · intro key value hmem
    have hvalue : value ∈ valuesFor key f.params :=
      List.mem_filterMap.2 ⟨(key, value), hmem, by simp⟩
    rw [jsonParam?_eq]
    match valuesFor key f.params, hlength key, hvalue with
    | [_], _, .head _ => rfl

theorem ToldAlike.atField (h : f.ToldAlike) (path : String) : (f.atField path).ToldAlike :=
  .of_keys_nodup h.keys_nodup

end Failure

/-! ### What rules and rule texts make -/

theorem Violation.toldAlike (violation : Violation) : violation.toFailure.ToldAlike := by
  refine .of_keys_nodup ?_
  -- the keys are those of the constructor, whatever is told under them
  cases violation with
  | notEmail => exact List.nodup_nil
  | missing | passwordKind => exact List.nodup_singleton "kind"
  | tooShort =>
    show ["min", "actual"].Nodup
    decide
  | tooLong =>
    show ["max", "actual"].Nodup
    decide
  | unsupported =>
    show ["rule", "kind"].Nodup
    decide
  | weakPassword w =>
    cases w with
    | lacks => exact List.nodup_singleton "requirement"
    | tooShort =>
      show ["requirement", "min", "actual"].Nodup
      decide

theorem Spec.Problem.toldAlike (problem : Problem) : problem.toFailure.ToldAlike := by
  refine .of_keys_nodup ?_
  cases problem with
  | unknownRule => exact List.nodup_singleton "rule"
  | badOptions =>
    show ["rule", "options"].Nodup
    decide

theorem Finding.toldAlike (finding : Finding) : finding.toFailure.ToldAlike := by
  cases finding with
  | violation violation => exact violation.toldAlike
  | problem problem => exact problem.toldAlike

theorem Rule.toldAlike_of_failure? {rule : Rule} {v : Value} {f : Failure}
    (h : rule.failure? v = some f) : f.ToldAlike := by
  obtain ⟨violation, -, rfl⟩ := Option.map_eq_some_iff.1 h
  exact violation.toldAlike

/-! ### What validations report -/

/-- What a validation reports of a record are findings, each with a path. -/
theorem Validator.toldAlike_of_mem_validate {v : Validator} {r : Record} {f : Failure}
    (h : f ∈ (v.validate r).report.failures) : f.ToldAlike := by
  obtain ⟨visit, -, hvisit⟩ := mem_failures_validate_iff.1 h
  obtain ⟨call, -, finding, -, rfl⟩ := Visit.mem_failures_iff.1 hvisit
  exact finding.toldAlike.atField visit.path

theorem Validator.toldAlike_of_mem_validateValue {v : Validator} {value : Value} {f : Failure}
    (h : f ∈ (v.validateValue value).report.failures) : f.ToldAlike := by
  cases value with
  | record r => exact toldAlike_of_mem_validate h
  | text | int | uint | float | bool | sequence | mapping | absent | present =>
    obtain rfl := List.mem_singleton.1 h
    exact .of_keys_nodup (List.nodup_singleton "kind")

/-- **Failures tell their parameters alike when they are looked up and in JSON.** A lookup finds the
first of the values given for a key, and the JSON form has the last one. But what any rule finds in
any value, what is said of a rule text, and what any validator reports of a record or of another
value, has no repeated keys: the JSON form has a key exactly where a lookup finds it, with the same
text, and loses no parameter. -/
theorem Failure.params_told_alike :
    (∀ (f : Failure) (params : List (String × String)) (key : String),
        (f.withParams params).param? key = (valuesFor key (f.params ++ params)).head? ∧
          (f.withParams params).jsonParam? key
            = (valuesFor key (f.params ++ params)).getLast?.map .text) ∧
      (∀ (rule : Rule) (v : Value), ∀ f ∈ rule.failure? v, f.ToldAlike) ∧
      (∀ problem : Spec.Problem, problem.toFailure.ToldAlike) ∧
      ∀ v : Validator,
        (∀ r, ∀ f ∈ (v.validate r).report.failures, f.ToldAlike) ∧
          ∀ value, ∀ f ∈ (v.validateValue value).report.failures, f.ToldAlike := by
  refine ⟨?_, ?_, Spec.Problem.toldAlike, ?_⟩
  · intro f params key
    rw [param?_eq, jsonParam?_eq, params_withParams]
    exact ⟨rfl, rfl⟩
  · intro rule v f hf
    exact Rule.toldAlike_of_failure? hf
  · intro v
    exact ⟨fun r f hf => Validator.toldAlike_of_mem_validate hf,
      fun value f hf => Validator.toldAlike_of_mem_validateValue hf⟩

/-- A password that is too short is told with three parameters, by its rule and inside two records,
and a value that is no record with one. -/
theorem Failure.params_told_alike_pin :
    let weakness : Failure :=
      (Violation.weakPassword (.tooShort Password.Policy.standard.minLength 3)).toFailure
    let card : Record := ⟨"Card", [⟨"pin", .text "abc", "password", none⟩]⟩
    let account : Record := ⟨"Account", [⟨"card", .record card, "", none⟩]⟩
    weakness ∈ (Rule.password .standard).failure? (.text "abc") ∧ weakness.ToldAlike ∧
      weakness.atField "card.pin" ∈ (Validator.standard.validate account).report.failures ∧
      (weakness.atField "card.pin").ToldAlike ∧
      Validator.notRecord .optional
        ∈ (Validator.standard.validateValue .absent).report.failures ∧
      (Validator.notRecord .optional).ToldAlike := by
  intro weakness card account
  have hrule : weakness ∈ (Rule.password .standard).failure? (.text "abc") := by decide +kernel
  have hreport : weakness.atField "card.pin"
      ∈ (Validator.standard.validate account).report.failures := by decide +kernel
  have hvalue : Validator.notRecord .optional
      ∈ (Validator.standard.validateValue .absent).report.failures := by decide +kernel
  obtain ⟨-, hrules, -, hvalidations⟩ := params_told_alike
  exact ⟨hrule, hrules _ _ _ hrule, hreport, (hvalidations _).1 _ _ hreport, hvalue,
    (hvalidations _).2 _ _ hvalue⟩

end RecordRules
