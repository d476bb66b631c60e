import Mend.Assoc
import Mend.Atom
import Mend.Cluster
import Mend.CodeContext
import Mend.Command
import Mend.Datum
import Mend.Diagnostic
import Mend.Diagnostic.CompilerOutput
import Mend.Diagnostic.Load
import Mend.Diagnostic.Record
import Mend.Diff.Apply
import Mend.Diff.Hunk
import Mend.Diff.Line
import Mend.Diff.Reverse
import Mend.Diff.WholeFile
import Mend.Encoding
import Mend.Engine
import Mend.Failure
import Mend.FileTree
import Mend.Generator
import Mend.Json
import Mend.Json.Display
import Mend.Json.Reader
import Mend.Json.Writer
import Mend.Limiter
import Mend.LogOutput
import Mend.Main
import Mend.Metrics
import Mend.Notice
import Mend.Number.Binary64
import Mend.Number.Integer
import Mend.Number.Numeral
import Mend.Number.Power
import Mend.Number.Quantity
import Mend.Options
import Mend.Options.Record
import Mend.Outcome
import Mend.Overlay
import Mend.Patch
import Mend.Path
import Mend.PatternKey
import Mend.Prompt
import Mend.Proofs.Cluster
import Mend.Proofs.Diagnostic.CompilerOutput
import Mend.Proofs.Diagnostic.HeaderForm
import Mend.Proofs.Diff.Bounds
import Mend.Proofs.Diff.Exchange
import Mend.Proofs.Diff.Ranges
import Mend.Proofs.Diff.Reversal
import Mend.Proofs.Diff.Undo
import Mend.Proofs.Diff.Weave
import Mend.Proofs.Diff.Window
import Mend.Proofs.Engine.Answer
import Mend.Proofs.Engine.Batch
import Mend.Proofs.Engine.Bookkeeping
import Mend.Proofs.Engine.Context
import Mend.Proofs.Engine.Frame
import Mend.Proofs.Engine.Journal
import Mend.Proofs.Engine.Ranges
import Mend.Proofs.Engine.Retract
import Mend.Proofs.Engine.Rollback
import Mend.Proofs.Engine.RulePatch
import Mend.Proofs.FileTree
import Mend.Proofs.Interleaving
import Mend.Proofs.Json.Limits
import Mend.Proofs.Json.Shape
import Mend.Proofs.Json.Token
import Mend.Proofs.Limiter
import Mend.Proofs.LinePatch
import Mend.Proofs.Overlay
import Mend.Proofs.Partition
import Mend.Proofs.PatternKey
import Mend.Proofs.Response.Diffs
import Mend.Proofs.Response.Fence
import Mend.Proofs.Response.Payload
import Mend.Proofs.Response.Reading
import Mend.Proofs.Retry
import Mend.Proofs.RuleBatch
import Mend.Proofs.RuleFix
import Mend.Proofs.RuleMatch
import Mend.Proofs.Run.Accounting
import Mend.Proofs.Run.Interference
import Mend.Proofs.Run.Routing
import Mend.Proofs.Run.Rules
import Mend.Proofs.Run.Shift
import Mend.Proofs.Run.Steps
import Mend.Proofs.Run.Totality
import Mend.Proofs.Run.Weave
import Mend.Proofs.Run.Writes
import Mend.Proofs.Schema
import Mend.Proofs.Settings.Bounds
import Mend.Proofs.Settings.Environment
import Mend.Proofs.Settings.Load
import Mend.Proofs.Settings.Override
import Mend.Proofs.Settings.Sections
import Mend.Proofs.Settings.Setting
import Mend.Proofs.Settings.Variables
import Mend.Proofs.Text
import Mend.Proofs.WholeFile
import Mend.Report
import Mend.Response
import Mend.Response.Fence
import Mend.Response.Payload
import Mend.Retry
import Mend.Rule
import Mend.Rule.Builtin
import Mend.Rule.Match
import Mend.Run
import Mend.Schema
import Mend.Schema.Issue
import Mend.Schema.Numeral
import Mend.Session
import Mend.Settings
import Mend.Settings.Load
import Mend.Settings.Record
import Mend.Settings.Rules
import Mend.Settings.Shape
import Mend.Settings.Source
import Mend.Template
import Mend.Text
import Mend.Text.Base64
import Mend.Text.Blank
import Mend.Text.Cased
import Mend.Text.CodeRanges
import Mend.Text.Digit
import Mend.Text.LetterCase
import Mend.Text.Printable
import Mend.Text.Quoted
import Mend.Text.Utf8
import Mend.Text.Word
import Mend.TextFile
import Mend.VariableFile
import Mend.Workspace
import Mend.Yaml.Document
import Mend.Yaml.Error
import Mend.Yaml.Mark
import Mend.Yaml.Node
import Mend.Yaml.Scalar
import Mend.Yaml.SetOrder
import Mend.Yaml.Tag
import Mend.Yaml.Time
import Mend.Yaml.Token
import Mend.Yaml.Token.Name
import Mend.Yaml.Token.Scalar
import Mend.Yaml.Token.Stream
import Mend.Proofs.PatternKey.Rewording
import Mend.Proofs.PatternKey.Residue
import Mend.Proofs.Prose
import Mend.Proofs.Utf8
import Mend.Proofs.CodeContext
import Mend.Proofs.Template
import Mend.Proofs.Metrics
import Mend.Proofs.RuleMember
import Mend.Proofs.Json.Nesting
import Mend.Proofs.Diagnostic.Load
import Mend.Proofs.RuleRegistry
import Mend.Proofs.Diff.Settled
import Mend.Proofs.Diff.Joined
