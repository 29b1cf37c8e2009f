import RecordRules.Config
import RecordRules.Config.Form
import RecordRules.Decimal
import RecordRules.Decimal.Numeral
import RecordRules.Decimal.Shortest
import RecordRules.Document
import RecordRules.Document.Form
import RecordRules.Email
import RecordRules.Failure
import RecordRules.Json
import RecordRules.Json.Grammar
import RecordRules.Json.Numeral
import RecordRules.Json.QuotedText
import RecordRules.Json.Skip
import RecordRules.Json.Token
import RecordRules.Options
import RecordRules.Pass
import RecordRules.Pass.Check
import RecordRules.Pass.Job
import RecordRules.Pass.Round
import RecordRules.Pass.Trace
import RecordRules.Pass.Visit
import RecordRules.Pass.Walk
import RecordRules.Password.Policy
import RecordRules.Password.Precedence
import RecordRules.Password.Requirement
import RecordRules.Report
import RecordRules.Rule
import RecordRules.Rule.Length
import RecordRules.Spec
import RecordRules.Spec.Call
import RecordRules.Spec.Grammar
import RecordRules.Text.Ascii
import RecordRules.Text.Blank
import RecordRules.Text.Cut
import RecordRules.Text.Quoted
import RecordRules.Text.Slice
import RecordRules.Validator
import RecordRules.Value
import RecordRules.Proofs.Config.Documents
import RecordRules.Proofs.Config.PartialDocuments
import RecordRules.Proofs.Config.RoundTrip
import RecordRules.Proofs.Document.Given
import RecordRules.Proofs.Document.Groups
import RecordRules.Proofs.Document.Readers
import RecordRules.Proofs.Email.Pattern
import RecordRules.Proofs.Failure.Parameters
import RecordRules.Proofs.Json.Lexing
import RecordRules.Proofs.Json.Skipping
import RecordRules.Proofs.Json.Strings
import RecordRules.Proofs.Json.Writing
import RecordRules.Proofs.Options.RoundTrip
import RecordRules.Proofs.Pass.Abstraction
import RecordRules.Proofs.Pass.Enumeration
import RecordRules.Proofs.Pass.Optionals
import RecordRules.Proofs.Pass.Paths
import RecordRules.Proofs.Pass.Reordering
import RecordRules.Proofs.Pass.Schedule
import RecordRules.Proofs.Pass.Trace
import RecordRules.Proofs.Pass.UnknownNames
import RecordRules.Proofs.Pass.ZeroRecords
import RecordRules.Proofs.Password.Complete
import RecordRules.Proofs.Password.Influence
import RecordRules.Proofs.Password.Precedence
import RecordRules.Proofs.Password.Requirements
import RecordRules.Proofs.Password.Richness
import RecordRules.Proofs.Password.Strictness
import RecordRules.Proofs.Report.Moving
import RecordRules.Proofs.Rule.Length
import RecordRules.Proofs.Rule.Violations
import RecordRules.Proofs.Spec.Absorption
import RecordRules.Proofs.Spec.Concatenation
import RecordRules.Proofs.Spec.Foresight
import RecordRules.Proofs.Spec.Groups
import RecordRules.Proofs.Spec.RoundTrip
import RecordRules.Proofs.Spec.Spacing
import RecordRules.Proofs.Spec.Tokens
import RecordRules.Proofs.Validator.History
