import LintRun.Batch
import LintRun.Ceiling
import LintRun.Channel
import LintRun.Check
import LintRun.Cli
import LintRun.Cli.Arguments
import LintRun.Config
import LintRun.Environment
import LintRun.Failure
import LintRun.Host
import LintRun.Host.Scripted
import LintRun.Invocation
import LintRun.Launch
import LintRun.Machine
import LintRun.Machine.Child
import LintRun.Machine.Command
import LintRun.Machine.Expansion
import LintRun.Machine.Interpreter
import LintRun.Machine.Parameter
import LintRun.Machine.Program
import LintRun.Machine.Redirection
import LintRun.Machine.Session
import LintRun.Machine.Setting
import LintRun.Machine.Signal
import LintRun.Machine.Source
import LintRun.Machine.Tool
import LintRun.Machine.Tool.Condition
import LintRun.Machine.Tool.Count
import LintRun.Machine.Tool.Directory
import LintRun.Machine.Tool.Display
import LintRun.Machine.Tool.Line
import LintRun.Machine.Tool.Sequence
import LintRun.Machine.Tool.Share
import LintRun.Machine.Tool.Translation
import LintRun.Machine.Variable
import LintRun.Machine.World
import LintRun.Main
import LintRun.Number.Binary64
import LintRun.Number.Decimal
import LintRun.Number.Reading
import LintRun.Options
import LintRun.Options.Layers
import LintRun.OsError
import LintRun.Outcome
import LintRun.Path
import LintRun.Platform
import LintRun.Probe
import LintRun.Proofs.AggregateRun
import LintRun.Proofs.BatchLaws
import LintRun.Proofs.BatchRuns
import LintRun.Proofs.CeilingLaws
import LintRun.Proofs.CheckLaws
import LintRun.Proofs.CleanRun
import LintRun.Proofs.CliLaws
import LintRun.Proofs.CommandLine
import LintRun.Proofs.CommandName
import LintRun.Proofs.ConfigLaws
import LintRun.Proofs.Course
import LintRun.Proofs.Coverage
import LintRun.Proofs.Creation
import LintRun.Proofs.Emission
import LintRun.Proofs.Enumeration
import LintRun.Proofs.Exclusions
import LintRun.Proofs.FailFast
import LintRun.Proofs.FewestLines
import LintRun.Proofs.FieldLaws
import LintRun.Proofs.FileLists
import LintRun.Proofs.Greedy
import LintRun.Proofs.Interleaving
import LintRun.Proofs.Iteration
import LintRun.Proofs.LaunchLaws
import LintRun.Proofs.LaunchTiming
import LintRun.Proofs.Launching
import LintRun.Proofs.LayerLaws
import LintRun.Proofs.LeadingDash
import LintRun.Proofs.LineSize
import LintRun.Proofs.Listings
import LintRun.Proofs.Number.NanLaws
import LintRun.Proofs.Number.RangeLaws
import LintRun.Proofs.Reach
import LintRun.Proofs.Refusals
import LintRun.Proofs.ReportLaws
import LintRun.Proofs.ResolveLaws
import LintRun.Proofs.ResolvedOptions
import LintRun.Proofs.RunLaws
import LintRun.Proofs.SelectionLaws
import LintRun.Proofs.Shell.QuoteLaws
import LintRun.Proofs.Shell.ReaderLaws
import LintRun.Proofs.Shell.ReservedWords
import LintRun.Proofs.Shell.SimpleCommands
import LintRun.Proofs.Shell.WindowsLaws
import LintRun.Proofs.Shell.WordLaws
import LintRun.Proofs.ShownValues
import LintRun.Proofs.Streaming
import LintRun.Proofs.Text.DigitLaws
import LintRun.Proofs.Text.LineLaws
import LintRun.Proofs.Text.TrimLaws
import LintRun.Proofs.Text.Utf8Laws
import LintRun.Proofs.TimeoutLaws
import LintRun.Proofs.TreeLaws
import LintRun.Proofs.Verbosity
import LintRun.Proofs.VerdictJoin
import LintRun.Proofs.VerdictLaws
import LintRun.Proofs.VersionLaws
import LintRun.Proofs.WalkLaws
import LintRun.Proofs.WalkOrder
import LintRun.Proofs.WorkflowLaws
import LintRun.Report
import LintRun.Run
import LintRun.Selection
import LintRun.Shell.Arithmetic
import LintRun.Shell.Arithmetic.Reading
import LintRun.Shell.Format
import LintRun.Shell.Grammar
import LintRun.Shell.Integer
import LintRun.Shell.Lint
import LintRun.Shell.Pattern
import LintRun.Shell.Quote
import LintRun.Shell.Script
import LintRun.Shell.WindowsArguments
import LintRun.Shell.Words
import LintRun.Strategy
import LintRun.Text.Blank
import LintRun.Text.Case
import LintRun.Text.CaseTable
import LintRun.Text.Digit
import LintRun.Text.Json
import LintRun.Text.Line
import LintRun.Text.PrintableTable
import LintRun.Text.Quoted
import LintRun.Text.Terminal
import LintRun.Text.Utf8
import LintRun.Toml
import LintRun.Toml.Draft
import LintRun.Toml.Lexeme
import LintRun.Toml.Scalar
import LintRun.Tree
import LintRun.Tree.Change
import LintRun.Value
import LintRun.Value.Moment
import LintRun.Value.Reading
import LintRun.Version
import LintRun.Walk
import LintRun.WorkflowCommand
