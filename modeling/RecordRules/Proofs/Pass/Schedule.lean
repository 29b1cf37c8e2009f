/-
The schedule of a walk does not matter.

The outcome of a job is what it will have found when it is finished: what it has found so far, then
what it still has to find, in the order of the calls and of the fields.

* **`Job.Step.outcome_eq`**, **`Level.Step.outcome_eq`** — a step leaves the outcome as it is,
  whichever job takes it;
* **`Level.outcome_enter`** — before any job does anything, the outcome is the walk field by field;
* **`Level.exists_step`** — while there are jobs to join, one of them can do something;
* **`report_of_completeRun`** — so every run comes to an end, and reports what the walk field by
  field reports.
-/
import Mathlib.Logic.Relation
import Mathlib.Tactic.ByContra
import RecordRules.Validator

open Relation (ReflTransGen TransGen)

namespace RecordRules

variable {s : Settings} {fanOut : FanOut}

/-! ### What jobs are going to find -/

mutual

/-- What a job will have found when it is finished. -/
def Job.outcome (s : Settings) : Job → Pass
  | .checking name value calls found =>
    found ++ .concat (calls.map (s.check name value)) ++ (s.walkValue value).within name
  | .walking name level found => found ++ (level.outcome s).within name
  | .finished found => found

/-- What the walk of a record will have found when all of its jobs are joined. -/
def Level.outcome (s : Settings) : Level → Pass
  | ⟨_, jobs, joined⟩ => joined ++ Job.outcomeAll s jobs

/-- What some jobs will have found, in their order. -/
def Job.outcomeAll (s : Settings) : List Job → Pass
  | [] => ∅
  | job :: rest => job.outcome s ++ Job.outcomeAll s rest

end

theorem Job.outcomeAll_append (jobs more : List Job) :
    outcomeAll s (jobs ++ more) = outcomeAll s jobs ++ outcomeAll s more := by
  induction jobs with
  | nil => simp [outcomeAll]
  | cons job jobs ih => rw [List.cons_append, outcomeAll, outcomeAll, ih, Pass.append_assoc]

theorem Job.outcome_start (f : Field) : (start f).outcome s = s.walkField f := by
  rw [Settings.walk_field]
  rfl

theorem Job.outcomeAll_start (fields : List Field) :
    outcomeAll s (fields.map start) = s.walkAll fields := by
  induction fields with
  | nil => rfl
  | cons f fields ih =>
    rw [List.map_cons, outcomeAll, outcome_start, ih]
    rfl

/-- Before any job does anything, the outcome is the walk field by field. -/
theorem Level.outcome_enter (r : Record) : (enter fanOut r).outcome s = s.walk r := by
  obtain ⟨typeName, fields⟩ := r
  show entering ⟨typeName, fields⟩ ++ Job.outcomeAll s (fields.map Job.start) = _
  rw [Job.outcomeAll_start]
  rfl

theorem Level.outcome_of_jobs_eq_nil {level : Level} (h : level.jobs = []) :
    level.outcome s = level.joined := by
  obtain ⟨atOnce, jobs, joined⟩ := level
  subst h
  show joined ++ (∅ : Pass) = joined
  exact Pass.append_empty joined

/-! ### Steps keep the outcome -/

-- the same recursion as for the work: a step below a field changes nothing above it
mutual

/-- A step of a job moves something from what is to be found to what is found. -/
theorem Job.Step.outcome_eq : ∀ {job job' : Job}, Job.Step s fanOut job job' →
    job.outcome s = job'.outcome s
  | _, _, .check => by simp [Job.outcome, Pass.concat, Pass.append_assoc]
  | _, _, .enter => by simp [Job.outcome, Pass.concat, Level.outcome_enter]
  | _, _, .finish h => by simp [Job.outcome, Pass.concat, s.walkValue_of_kind h]
  | _, _, .inside h => by rw [Job.outcome, Job.outcome, h.outcome_eq]
  | _, _, .leave => by simp [Job.outcome, Level.outcome, Job.outcomeAll]

/-- A step in a record, of whichever job, leaves the outcome of the record as it is. -/
theorem Level.Step.outcome_eq : ∀ {level level' : Level}, Level.Step s fanOut level level' →
    level.outcome s = level'.outcome s
  | _, _, .turn _ h => by
    simp only [Level.outcome, Job.outcomeAll_append, Job.outcomeAll, h.outcome_eq]
  -- the joined job comes first in what is left, so no part of the outcome changes its place
  | _, _, .join => by simp only [Level.outcome, Job.outcomeAll, Job.outcome, Pass.append_assoc]

end

theorem Level.outcome_eq_of_steps {level level' : Level}
    (h : ReflTransGen (Level.Step s fanOut) level level') : level'.outcome s = level.outcome s := by
  induction h with
  | refl => rfl
  | tail _ h ih => rw [← h.outcome_eq, ih]

/-! ### Complete runs -/

/-- While there are jobs to join, one of them can do something. -/
theorem Level.exists_step {level : Level} (h : level.jobs ≠ []) :
    ∃ next, Level.Step s fanOut level next := by
  -- a round is at least one step
  have hround : TransGen (Level.Step s fanOut) level (level.round s fanOut) :=
    transGen_round level h
  obtain ⟨next, hstep, -⟩ := TransGen.head'_iff.mp hround
  exact ⟨next, hstep⟩

theorem Level.not_step {level next : Level} (h : level.jobs = []) :
    ¬ Level.Step s fanOut level next := by
  intro hstep
  obtain ⟨atOnce, jobs, joined⟩ := level
  subst h
  exact absurd hstep.work_eq (Nat.succ_ne_zero _).symm

/-- No run goes on for ever: every step leaves less work. -/
theorem Level.wellFounded_step : WellFounded (flip (Level.Step s fanOut)) := by
  refine Subrelation.wf ?_ (measure Level.work).wf
  intro level level' h
  show level.work < level'.work
  rw [h.work_eq]
  exact Nat.lt_succ_self _

theorem Level.steps_run (level : Level) :
    ReflTransGen (Level.Step s fanOut) level (level.run s fanOut) := by
  fun_induction run s fanOut level with
  | case1 level h => exact .refl
  | case2 level h ih => exact (transGen_round level h).to_reflTransGen.trans ih

/-- A run of the walk of a record, from where no job has done anything to where nothing more can be
done. -/
structure Level.CompleteRun (s : Settings) (fanOut : FanOut) (r : Record) (level : Level) :
    Prop where
  steps : ReflTransGen (Level.Step s fanOut) (enter fanOut r) level
  complete : ∀ next, ¬ Level.Step s fanOut level next

theorem Level.CompleteRun.jobs_eq_nil {r : Record} {level : Level}
    (h : CompleteRun s fanOut r level) : level.jobs = [] := by
  by_contra hjobs
  obtain ⟨next, hstep⟩ := exists_step hjobs
  exact h.complete next hstep

/-- A complete run has found what the walk field by field finds. -/
theorem Level.CompleteRun.joined_eq {r : Record} {level : Level}
    (h : CompleteRun s fanOut r level) : level.joined = s.walk r := by
  rw [← outcome_of_jobs_eq_nil h.jobs_eq_nil, outcome_eq_of_steps h.steps, outcome_enter]

/-- Rounds to the end are a complete run. -/
theorem Level.completeRun_run (r : Record) :
    CompleteRun s fanOut r ((enter fanOut r).run s fanOut) where
  steps := steps_run _
  complete := fun _ => not_step (jobs_run _)

theorem Settings.walkAtOnce_eq (r : Record) : s.walkAtOnce r = s.walk r :=
  (Level.completeRun_run r).joined_eq

/-- The same validator with another fan-out. -/
def Validator.withFanOut (v : Validator) (fanOut : FanOut) : Validator :=
  { v with config := v.config.withFanOut fanOut }

/-- **The schedule does not matter.** Whatever the fan-out, no run of the jobs of a record goes on
for ever, and where nothing more can be done all jobs are joined and the report is, in the same
order, that of the walk field by field. The walk that a validator computes with the fields at once
is one of these runs; so it gives the same outcome as the one with the fields one after another. -/
theorem report_of_completeRun (v : Validator) (r : Record) :
    (∀ fanOut, WellFounded (flip (Level.Step v.settings fanOut))) ∧
      (∀ fanOut level, Level.CompleteRun v.settings fanOut r level →
        level.jobs = [] ∧ level.joined.report = (v.settings.walk r).report) ∧
      (∃ level, Level.CompleteRun v.settings .parallel r level ∧
        level.joined = (v.withFanOut .parallel).walk r) ∧
      (v.withFanOut .sequential).walk r = v.settings.walk r ∧
      (v.withFanOut .parallel).validate r = (v.withFanOut .sequential).validate r := by
  refine ⟨?_, ?_, ?_, rfl, ?_⟩
  · intro fanOut
    exact Level.wellFounded_step
  · intro fanOut level h
    exact ⟨h.jobs_eq_nil, congrArg Pass.report h.joined_eq⟩
  · exact ⟨_, Level.completeRun_run r, rfl⟩
  · have hwalk : (v.withFanOut .parallel).walk r = (v.withFanOut .sequential).walk r :=
      Settings.walkAtOnce_eq r
    rw [Validator.validate, Validator.validate, Validator.report_pass, Validator.report_pass, hwalk]

/-- The second of two fields may have its turn before the first one has any. -/
theorem report_of_second_first :
    let s := Validator.standard.settings
    let first : Field := ⟨"first", .bool false, "required", none⟩
    let second : Field := ⟨"second", .bool false, "required", none⟩
    let pair : Record := ⟨"Pair", [first, second]⟩
    let checked : Job := .checking "second" (.bool false) []
      (.logged [] ++ s.check "second" (.bool false) ⟨"required", ""⟩)
    let after : Level := ⟨true, [.start first, checked], Level.entering pair⟩
    ∃ level, Level.Step s .parallel (.enter .parallel pair) after ∧
      ReflTransGen (Level.Step s .parallel) after level ∧
      level.jobs = [] ∧ level.joined.report = (s.walk pair).report := by
  intro s first second pair checked after
  have hcalls : second.calls = [⟨"required", ""⟩] := by decide +kernel
  have hcheck : Job.Step s .parallel (.start second) checked := by
    rw [Job.start, hcalls]
    exact .check
  have hturn : Level.Step s .parallel (.enter .parallel pair) after :=
    @Level.Step.turn s .parallel true [.start first] _ _ [] _ (.inl rfl) hcheck
  have hrest : ReflTransGen (Level.Step s .parallel) after (after.run s .parallel) :=
    Level.steps_run after
  have hrun : Level.CompleteRun s .parallel pair (after.run s .parallel) :=
    ⟨.head hturn hrest, fun _ => Level.not_step (Level.jobs_run after)⟩
  exact ⟨_, hturn, hrest, (report_of_completeRun .standard pair).2.1 .parallel _ hrun⟩

end RecordRules
