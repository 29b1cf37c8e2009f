/-
Walking a record in rounds.

In a round every job that may take a turn does so; the jobs of a record that run at once all take
one, and the first of them is joined instead if it is finished.

* **`Job.rel_round`**, **`Level.rel_round`** — a transitive relation that has all steps has all
  rounds;
* **`Level.transGen_round`**, **`Level.work_round_lt`** — so a round is a chain of steps, and leaves
  less work;
* **`Level.jobs_run`** — rounds end with every job joined.

Design notes: rounds are one schedule among many. They serve to compute a walk.
-/
import RecordRules.Pass.Job

open Relation (TransGen)

namespace RecordRules

variable (s : Settings) (fanOut : FanOut)

mutual

/-- What a job becomes when it takes a turn, and so do the jobs inside it. -/
def Job.round : Job → Job
  | .checking name value (call :: calls) found =>
    .checking name value calls (found ++ s.check name value call)
  | .checking name (.record r) [] found => .walking name (.enter fanOut r) found
  | .checking _ _ [] found => .finished found
  | .walking name ⟨_, [], joined⟩ found => .finished (found ++ joined.within name)
  | .walking name level found => .walking name level.round found
  | .finished found => .finished found

/-- What the walk of a record becomes when its first job is joined or takes a turn, and in this case
the other jobs take one if they may. -/
def Level.round : Level → Level
  | ⟨atOnce, [], joined⟩ => ⟨atOnce, [], joined⟩
  | ⟨atOnce, .finished found :: rest, joined⟩ => ⟨atOnce, rest, joined ++ found⟩
  | ⟨atOnce, job :: rest, joined⟩ =>
    ⟨atOnce, job.round :: if atOnce then Job.roundAll rest else rest, joined⟩

/-- What some jobs become when each of them takes a turn. -/
def Job.roundAll : List Job → List Job
  | [] => []
  | job :: rest => job.round :: Job.roundAll rest

end

variable {s fanOut}

theorem Job.round_of_isFinished {job : Job} (h : job.isFinished = true) :
    job.round s fanOut = job := by
  obtain ⟨found, rfl⟩ := isFinished_iff.1 h
  rfl

theorem Level.round_cons {atOnce : Bool} {job : Job} {rest : List Job} {joined : Pass}
    (h : job.isFinished = false) :
    round s fanOut ⟨atOnce, job :: rest, joined⟩
      = ⟨atOnce, job.round s fanOut :: if atOnce then Job.roundAll s fanOut rest else rest,
          joined⟩ := by
  cases job with
  | finished found => cases h
  | checking | walking => simp [round]

/-! ### Rounds are chains of steps -/

section Chains

-- a job or a record is part of something larger, and `f` puts it in its place there
variable {α : Type} {r : α → α → Prop}

-- by recursion on the jobs; `before` are those that have had their turn in this round
mutual

theorem Job.rel_round (trans : ∀ {a b c}, r a b → r b c → r a c) : ∀ f : Job → α,
    (∀ {job job'}, Job.Step s fanOut job job' → r (f job) (f job')) →
      ∀ job : Job, job.isFinished = false → r (f job) (f (job.round s fanOut))
  | _, hf, .checking _ _ (_ :: _) _, _ => hf .check
  | _, hf, .checking _ (.record _) [] _, _ => hf .enter
  | _, hf, .checking _ (.text _) [] _, _ | _, hf, .checking _ (.int _) [] _, _
  | _, hf, .checking _ (.uint _) [] _, _ | _, hf, .checking _ (.float _) [] _, _
  | _, hf, .checking _ (.bool _) [] _, _ | _, hf, .checking _ (.sequence _) [] _, _
  | _, hf, .checking _ (.mapping _) [] _, _ | _, hf, .checking _ .absent [] _, _
  | _, hf, .checking _ (.present _) [] _, _ => hf (.finish (by simp [Value.kind]))
  | _, hf, .walking _ ⟨_, [], _⟩ _, _ => hf .leave
  | f, hf, .walking name ⟨atOnce, job :: rest, joined⟩ found, _ =>
    Level.rel_round trans (fun level => f (.walking name level found)) (fun h => hf (.inside h))
      ⟨atOnce, job :: rest, joined⟩ (by simp)

theorem Level.rel_round (trans : ∀ {a b c}, r a b → r b c → r a c) : ∀ f : Level → α,
    (∀ {level level'}, Level.Step s fanOut level level' → r (f level) (f level')) →
      ∀ level : Level, level.jobs ≠ [] → r (f level) (f (level.round s fanOut))
  | _, _, ⟨_, [], _⟩, h => absurd rfl h
  | f, hf, ⟨atOnce, job :: rest, joined⟩, _ => by
    have hjob := Job.rel_round trans (fun job => f ⟨atOnce, job :: rest, joined⟩)
      (fun h => hf (@Level.Step.turn s fanOut atOnce [] _ _ rest joined (.inr rfl) h)) job
    have hrest := Job.rel_roundAll trans f hf [job.round s fanOut] rest joined
    cases hfinished : job.isFinished with
    | true =>
      -- a round joins a finished first job, and no other job has a turn
      obtain ⟨found, rfl⟩ := Job.isFinished_iff.1 hfinished
      exact hf .join
    | false =>
      rw [Level.round_cons hfinished]
      cases atOnce with
      | false => exact hjob hfinished
      | true =>
        -- the first job takes its turn before the others
        rcases hrest with h | h
        · rw [if_pos rfl, h]
          exact hjob hfinished
        · exact trans (hjob hfinished) h

theorem Job.rel_roundAll (trans : ∀ {a b c}, r a b → r b c → r a c) : ∀ f : Level → α,
    (∀ {level level'}, Level.Step s fanOut level level' → r (f level) (f level')) →
      ∀ (before jobs : List Job) (joined : Pass), Job.roundAll s fanOut jobs = jobs ∨
        r (f ⟨true, before ++ jobs, joined⟩)
          (f ⟨true, before ++ Job.roundAll s fanOut jobs, joined⟩)
  | _, _, _, [], _ => .inl rfl
  | f, hf, before, job :: rest, joined => by
    have hjob := Job.rel_round trans (fun job => f ⟨true, before ++ job :: rest, joined⟩)
      (fun h => hf (.turn (.inl rfl) h)) job
    have hrest := Job.rel_roundAll trans f hf (before ++ [job.round s fanOut]) rest joined
    simp only [List.append_assoc, List.singleton_append] at hrest
    rw [Job.roundAll]
    cases hfinished : job.isFinished with
    | true =>
      rw [Job.round_of_isFinished hfinished] at hrest ⊢
      exact hrest.imp_left (congrArg _)
    | false =>
      right
      rcases hrest with h | h
      · rw [h]
        exact hjob hfinished
      · exact trans (hjob hfinished) h

end

end Chains

theorem Level.transGen_round (level : Level) (h : level.jobs ≠ []) :
    TransGen (Level.Step s fanOut) level (level.round s fanOut) :=
  rel_round .trans id .single level h

theorem Level.work_round_lt (level : Level) (h : level.jobs ≠ []) :
    (level.round s fanOut).work < level.work := by
  refine rel_round (r := fun level level' => level'.work < level.work) ?_ id ?_ level h
  · intro a b c hab hbc
    exact Nat.lt_trans hbc hab
  · intro level level' hstep
    rw [id, id, hstep.work_eq]
    exact Nat.lt_succ_self _

/-! ### Rounds to the end -/

namespace Level

/-- The walk of a record after as many rounds as join all of its jobs. -/
def run (s : Settings) (fanOut : FanOut) (level : Level) : Level :=
  if _h : level.jobs = [] then level else run s fanOut (level.round s fanOut)
termination_by level.work
decreasing_by exact work_round_lt level ‹_›

theorem jobs_run (level : Level) : (level.run s fanOut).jobs = [] := by
  fun_induction run s fanOut level with
  | case1 level h => exact h
  | case2 level h ih => exact ih

end Level

/-- The walk of a record with the fields of every record at once. -/
def Settings.walkAtOnce (s : Settings) (r : Record) : Pass :=
  ((Level.enter .parallel r).run s .parallel).joined

end RecordRules
