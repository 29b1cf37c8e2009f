/-
Walking a record by jobs.

Every field is a job. A job checks its calls one by one into a pass of its own; then, if its value
is a record, it walks that record by the jobs of its fields. The jobs of one record run at once or
in line: at once any of them may take the next turn, in line only the first one may. The first job
is joined when it is finished, then the next one, so what the jobs found is put together in the
order of the fields, whatever the order in which they finished.

* **`Job.Step`**, **`Level.Step`** — one job, anywhere, does one thing: every run of the jobs is a
  chain of steps;
* **`Job.Step.work_eq`**, **`Level.Step.work_eq`** — the work that is left counts the steps.

Design notes: the relations leave open which job takes a turn. Starting a job is no step of its own:
a job that has had no turn yet is the same as one that is not started.
-/
import RecordRules.Pass.Walk

namespace RecordRules

mutual

/-- The state of the job of one field. -/
inductive Job where
  /-- Calls are still to be checked. -/
  | checking (name : String) (value : Value) (calls : List Spec.Call) (found : Pass)
  /-- The record that the field holds is being walked. -/
  | walking (name : String) (level : Level) (found : Pass)
  | finished (found : Pass)

/-- The state of the walk of one record. -/
structure Level where
  /-- Whether the jobs run at once, and not in line. -/
  atOnce : Bool
  /-- The jobs that are not joined yet, in the order of the fields. -/
  jobs : List Job
  /-- What the record and its joined jobs have found. -/
  joined : Pass

end

namespace Job

/-- The job of a field, before it does anything. -/
def start (f : Field) : Job := checking f.name f.value f.calls (.logged f.hintEvents)

def isFinished : Job → Bool
  | finished _ => true
  | _ => false

theorem isFinished_iff {job : Job} : job.isFinished = true ↔ ∃ found, job = finished found := by
  cases job <;> simp [isFinished]

end Job

namespace Level

/-- The log of entering a record. -/
def entering (r : Record) : Pass := .logged [.visiting r.typeName r.fields.length]

/-- The walk of a record, before any of its jobs does anything. Fewer than two jobs run in line. -/
def enter (fanOut : FanOut) (r : Record) : Level where
  atOnce := fanOut == .parallel && 2 ≤ r.fields.length
  jobs := r.fields.map Job.start
  joined := entering r

end Level

variable (s : Settings) (fanOut : FanOut)

/-! ### Steps in any order -/

mutual

/-- A job does one thing: it checks a call, enters the record that its field holds, takes a step in
that record or leaves it, or is finished. -/
inductive Job.Step : Job → Job → Prop where
  | check {name value call calls found} :
    Job.Step (.checking name value (call :: calls) found)
      (.checking name value calls (found ++ s.check name value call))
  | enter {name r found} :
    Job.Step (.checking name (.record r) [] found) (.walking name (.enter fanOut r) found)
  | finish {name value found} (h : value.kind ≠ .record) :
    Job.Step (.checking name value [] found) (.finished found)
  | inside {name level level' found} (h : Level.Step level level') :
    Job.Step (.walking name level found) (.walking name level' found)
  | leave {name atOnce joined found} :
    Job.Step (.walking name ⟨atOnce, [], joined⟩ found) (.finished (found ++ joined.within name))

/-- One of the jobs of a record takes a turn, or the first one is joined. -/
inductive Level.Step : Level → Level → Prop where
  -- in line no job may pass the ones before it
  | turn {atOnce before job job' after joined} (may : atOnce = true ∨ before = [])
    (h : Job.Step job job') :
    Level.Step ⟨atOnce, before ++ job :: after, joined⟩ ⟨atOnce, before ++ job' :: after, joined⟩
  | join {atOnce found rest joined} :
    Level.Step ⟨atOnce, .finished found :: rest, joined⟩ ⟨atOnce, rest, joined ++ found⟩

end

/-! ### The work that is left -/

mutual

/-- The steps of a job after its calls: it is finished, or it enters a record and leaves it. -/
def valueWork : Value → Nat
  | .record r => recordWork r + 2
  | _ => 1

/-- The steps inside a record. -/
def recordWork : Record → Nat
  | ⟨_, fields⟩ => fieldsWork fields

/-- The steps for some fields. -/
def fieldsWork : List Field → Nat
  | [] => 0
  | ⟨_, value, rules, _⟩ :: rest =>
    -- one more step joins the field
    ((Spec.ofText rules).calls.length + valueWork value + 1) + fieldsWork rest

end

mutual

/-- The number of steps that a job still has to take. -/
def Job.work : Job → Nat
  | .checking _ value calls _ => calls.length + valueWork value
  | .walking _ level _ => level.work + 1
  | .finished _ => 0

/-- The number of steps that are left of the walk of a record. -/
def Level.work : Level → Nat
  | ⟨_, jobs, _⟩ => Job.workAll jobs

/-- The number of steps until some jobs are finished and joined. -/
def Job.workAll : List Job → Nat
  | [] => 0
  | job :: rest => (job.work + 1) + Job.workAll rest

end

theorem valueWork_of_kind {value : Value} (h : value.kind ≠ .record) : valueWork value = 1 := by
  cases value <;> first | rfl | exact absurd rfl h

theorem Job.workAll_append (jobs more : List Job) :
    workAll (jobs ++ more) = workAll jobs + workAll more := by
  induction jobs with
  | nil => simp [workAll]
  | cons job jobs ih => simp [workAll, ih, Nat.add_assoc]

theorem Job.workAll_start (fields : List Field) :
    workAll (fields.map start) = fieldsWork fields := by
  induction fields with
  | nil => rfl
  | cons f fields ih => cases f; simp [workAll, fieldsWork, start, work, Field.calls, ih]

theorem Level.work_enter (r : Record) : (enter fanOut r).work = recordWork r := by
  cases r
  exact Job.workAll_start _

variable {s fanOut}

-- by recursion on the derivation of the step, down to the job that takes it
mutual

theorem Job.Step.work_eq : ∀ {job job' : Job}, Job.Step s fanOut job job' →
    job.work = job'.work + 1
  | _, _, .check => by
    simp only [Job.work, List.length_cons]
    omega
  | _, _, .enter => by simp [Job.work, valueWork, Level.work_enter]
  | _, _, .finish h => by simp [Job.work, valueWork_of_kind h]
  | _, _, .inside h => by simp [Job.work, h.work_eq]
  | _, _, .leave => by simp [Job.work, Level.work, Job.workAll]

theorem Level.Step.work_eq : ∀ {level level' : Level}, Level.Step s fanOut level level' →
    level.work = level'.work + 1
  | _, _, .turn _ h => by
    simp only [Level.work, Job.workAll_append, Job.workAll, h.work_eq]
    omega
  | _, _, .join => by
    simp only [Level.work, Job.workAll, Job.work]
    omega

end

end RecordRules
