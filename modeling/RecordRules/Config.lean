/-
Configuration of a validator.

A configuration says how the fields of a record are scheduled, what becomes of rule names that no
rule has, and which password policy a validator starts with. In a document it is a group of three
settings, one of which, the password policy, is itself null or a group of five.

A configuration is built from a preset by setting one thing after another. In between it may be
stored: written as a document and read back from it, which may fail.

* **`Config.toText`**, **`Config.ofText`** — the document of a configuration, and the configuration
  that a document gives;
* **`Config.build`** — the configuration that some steps make;
* **`Config.after`** — the configuration after some actions, each of them a step or a reload.
-/
import RecordRules.Document
import RecordRules.Password.Policy

namespace RecordRules

/-- How the fields of one record are scheduled. -/
inductive FanOut where
  /-- All at once; the record is done when all of them are. -/
  | parallel
  | sequential
  deriving DecidableEq, Repr

namespace FanOut

def all : List FanOut := [parallel, sequential]

/-- The word for a schedule in documents. -/
def text : FanOut → String
  | parallel => "parallel"
  | sequential => "sequential"

/-- The schedule with this word. -/
def ofText? (s : String) : Option FanOut := all.find? fun choice => choice.text = s

@[simp] theorem ofText?_text (choice : FanOut) : ofText? choice.text = some choice := by
  cases choice <;> decide

end FanOut

/-- What becomes of a rule name that no rule has. -/
inductive UnknownRules where
  | ignore
  | reject
  deriving DecidableEq, Repr

namespace UnknownRules

def all : List UnknownRules := [ignore, reject]

/-- The word for a choice in documents. -/
def text : UnknownRules → String
  | ignore => "ignore"
  | reject => "reject"

/-- The choice with this word. -/
def ofText? (s : String) : Option UnknownRules := all.find? fun choice => choice.text = s

@[simp] theorem ofText?_text (choice : UnknownRules) : ofText? choice.text = some choice := by
  cases choice <;> decide

end UnknownRules

/-- The settings that a validator is built from. -/
structure Config where
  fanOut : FanOut
  unknownRules : UnknownRules
  password : Option Password.Policy
  deriving DecidableEq, Repr

namespace Config

/-- Parallel fields, unknown rules ignored, no password policy. -/
def standard : Config := ⟨.parallel, .ignore, none⟩

/-- The standard configuration, with unknown rules rejected. -/
def strict : Config := { standard with unknownRules := .reject }

instance : Inhabited Config := ⟨standard⟩

def withFanOut (c : Config) (fanOut : FanOut) : Config := { c with fanOut }

def withUnknownRules (c : Config) (unknownRules : UnknownRules) : Config :=
  { c with unknownRules }

def withPassword (c : Config) (policy : Password.Policy) : Config :=
  { c with password := some policy }

end Config

/-! ### Writing documents -/

/-- The JSON form of a policy. -/
def Password.Policy.toJson (p : Password.Policy) : Json :=
  .object [
    ("min_length", .size p.minLength),
    ("require_digits", .bool p.digits),
    ("require_uppercase", .bool p.uppercase),
    ("require_lowercase", .bool p.lowercase),
    ("require_special_chars", .bool p.special)]

/-- The JSON form of a configuration. -/
def Config.toJson (c : Config) : Json :=
  .object [
    ("fan_out", .text c.fanOut.text),
    ("unknown_rules", .text c.unknownRules.text),
    ("password", match c.password with
      | some policy => policy.toJson
      | none => .null)]

/-! ### Reading documents -/

open Document

/-- How a document gives one setting of a policy. -/
def Password.Setting.entry : Password.Setting → Entry Password.Policy
  | .minLength => ⟨Setting.minLength.key, fun p => Reader.size.map p.withMinLength⟩
  | .requires c => ⟨(Setting.requires c).key, fun p => Reader.flag.map (p.withClass c)⟩

/-- The settings of a policy; those that a document does not give are the standard ones. -/
def Password.Policy.shape : Shape Password.Policy where
  title := "struct PasswordPolicy"
  start := .standard
  entries := Setting.all.map Setting.entry

namespace Config

/-- The words for the schedules. -/
def fanOutChoices : Choices FanOut := ⟨FanOut.all.map FanOut.text, FanOut.ofText?⟩

/-- The words for what becomes of unknown rules. -/
def unknownRulesChoices : Choices UnknownRules :=
  ⟨UnknownRules.all.map UnknownRules.text, UnknownRules.ofText?⟩

/-- The settings of a configuration; those that a document does not give are the standard ones. -/
def shape : Shape Config where
  title := "struct ValidatorConfig"
  start := .standard
  entries := [
    ⟨"fan_out", fun c => (Reader.choice fanOutChoices).map c.withFanOut⟩,
    ⟨"unknown_rules", fun c => (Reader.choice unknownRulesChoices).map c.withUnknownRules⟩,
    ⟨"password", fun c =>
      (Reader.struct Password.Policy.shape).optional.map fun password => { c with password }⟩]

/-- The configuration that a document gives. -/
def ofText (text : String) : Except Document.Problem Config := Document.readText shape text

/-- The document of a configuration. -/
def toText (c : Config) : String := c.toJson.render

end Config

/-- What is said of a document that is JSON of the wrong shape. -/
def Document.Mismatch.configMessage (m : Mismatch) : String :=
  "invalid validator configuration: " ++ m.message

/-! ### Building and storing -/

namespace Config

/-- A step in building a configuration. The presets replace all that was set before. -/
inductive Step where
  | standard
  | strict
  | fanOut (choice : FanOut)
  | unknownRules (choice : UnknownRules)
  | password (policy : Password.Policy)
  deriving DecidableEq, Repr

/-- The configuration after a step. -/
def step (c : Config) : Step → Config
  | .standard => standard
  | .strict => strict
  | .fanOut choice => c.withFanOut choice
  | .unknownRules choice => c.withUnknownRules choice
  | .password policy => c.withPassword policy

/-- The configuration after some steps. -/
def build (c : Config) (steps : List Step) : Config := steps.foldl step c

/-- Something that is done with a configuration. -/
inductive Action where
  | build (step : Step)
  /-- Writes the configuration and reads the document. -/
  | reload
  deriving DecidableEq, Repr

/-- The step that an action is. -/
def Action.step? : Action → Option Step
  | build step => some step
  | reload => none

/-- The configuration after an action, or what is wrong with the document that it was stored in. -/
def act (c : Config) : Action → Except Document.Problem Config
  | .build step => .ok (c.step step)
  | .reload => ofText c.toText

/-- The configuration after some actions. -/
def after (c : Config) (actions : List Action) : Except Document.Problem Config :=
  actions.foldlM act c

end Config

end RecordRules
