import BackendFuzz.Backend
import BackendFuzz.Call.ParameterType
import BackendFuzz.Call.Plan
import BackendFuzz.Call.Planner
import BackendFuzz.Call.Selectors
import BackendFuzz.Call.Word
import BackendFuzz.Campaign.Build
import BackendFuzz.Campaign.Config
import BackendFuzz.Campaign.Results
import BackendFuzz.Campaign.Run
import BackendFuzz.Campaign.Stats
import BackendFuzz.CommandLine.Arguments
import BackendFuzz.CommandLine.Configuration
import BackendFuzz.CommandLine.Options
import BackendFuzz.Compiler.Dispatch
import BackendFuzz.Compiler.Eof
import BackendFuzz.Compiler.Outcome
import BackendFuzz.Compiler.Seeds
import BackendFuzz.Compiler.Standard
import BackendFuzz.Divergence.Classifier
import BackendFuzz.Divergence.Record
import BackendFuzz.Execution.Machine
import BackendFuzz.Execution.Outcome
import BackendFuzz.Execution.Status
import BackendFuzz.Fault
import BackendFuzz.FileStore
import BackendFuzz.Given
import BackendFuzz.Json.Basic
import BackendFuzz.Json.Equality
import BackendFuzz.Json.Literal
import BackendFuzz.Json.Misuse
import BackendFuzz.Json.Parser
import BackendFuzz.Json.Printer
import BackendFuzz.Log.Event
import BackendFuzz.Log.Record
import BackendFuzz.Log.Setup
import BackendFuzz.Log.Template
import BackendFuzz.Main
import BackendFuzz.Moment
import BackendFuzz.Number.Binary64
import BackendFuzz.Number.Decimal
import BackendFuzz.Number.Reading
import BackendFuzz.Number.Whole
import BackendFuzz.Outside
import BackendFuzz.Path
import BackendFuzz.Program
import BackendFuzz.Rewriting.Engine
import BackendFuzz.Rewriting.Generator
import BackendFuzz.Rewriting.RuleFile
import BackendFuzz.Session
import BackendFuzz.Settings.Basic
import BackendFuzz.Settings.EnvFile
import BackendFuzz.Settings.Environment
import BackendFuzz.SyntaxTree
import BackendFuzz.Text.Blank
import BackendFuzz.Text.Digit
import BackendFuzz.Text.Letter
import BackendFuzz.Text.Lowercase
import BackendFuzz.Text.Printable
import BackendFuzz.Text.Quoted
import BackendFuzz.Text.Range
import BackendFuzz.Text.Surrogate
import BackendFuzz.Text.Utf8
import BackendFuzz.Text.Word
import BackendFuzz.Proofs.Call.Draws
import BackendFuzz.Proofs.Call.Gate
import BackendFuzz.Proofs.Call.TypeText
import BackendFuzz.Proofs.Call.Words
import BackendFuzz.Proofs.Campaign.Accounts
import BackendFuzz.Proofs.Campaign.Appending
import BackendFuzz.Proofs.Campaign.Calls
import BackendFuzz.Proofs.Campaign.Compiles
import BackendFuzz.Proofs.Campaign.Dispatch
import BackendFuzz.Proofs.Campaign.Extent
import BackendFuzz.Proofs.Campaign.Failures
import BackendFuzz.Proofs.Campaign.Isolation
import BackendFuzz.Proofs.Campaign.Iterations
import BackendFuzz.Proofs.Campaign.MissingCompilers
import BackendFuzz.Proofs.Campaign.Readiness
import BackendFuzz.Proofs.Campaign.Rejections
import BackendFuzz.Proofs.Campaign.Replies
import BackendFuzz.Proofs.Campaign.ResultsLog
import BackendFuzz.Proofs.Campaign.Setup
import BackendFuzz.Proofs.Campaign.SourceFiles
import BackendFuzz.Proofs.Campaign.Sources
import BackendFuzz.Proofs.Campaign.Steps
import BackendFuzz.Proofs.Campaign.Tools
import BackendFuzz.Proofs.Campaign.Trials
import BackendFuzz.Proofs.Campaign.Variation
import BackendFuzz.Proofs.Campaign.Saves
import BackendFuzz.Proofs.Compiler.Lookups
import BackendFuzz.Proofs.Compiler.Run
import BackendFuzz.Proofs.Compiler.Selection
import BackendFuzz.Proofs.Divergence.Classification
import BackendFuzz.Proofs.Divergence.Comparison
import BackendFuzz.Proofs.Divergence.Findings
import BackendFuzz.Proofs.Divergence.Origins
import BackendFuzz.Proofs.Divergence.Reordering
import BackendFuzz.Proofs.Execution.Execute
import BackendFuzz.Proofs.Execution.Markers
import BackendFuzz.Proofs.Execution.Report
import BackendFuzz.Proofs.Execution.Success
import BackendFuzz.Proofs.Execution.Verdict
import BackendFuzz.Proofs.Json.Equality
import BackendFuzz.Proofs.Json.Lexemes
import BackendFuzz.Proofs.Json.Overlong
import BackendFuzz.Proofs.Json.Printable
import BackendFuzz.Proofs.Json.Reals
import BackendFuzz.Proofs.Json.Roundtrip
import BackendFuzz.Proofs.Log.Lines
import BackendFuzz.Proofs.Number.Overflow
import BackendFuzz.Proofs.Number.Rounding
import BackendFuzz.Proofs.Number.Shortest
import BackendFuzz.Proofs.Program.ExitStatus
import BackendFuzz.Proofs.Rewriting.Replies
import BackendFuzz.Proofs.Session.Configured
import BackendFuzz.Proofs.Session.Directories
import BackendFuzz.Proofs.Session.Faults
import BackendFuzz.Proofs.Session.Files
import BackendFuzz.Proofs.Session.Frame
import BackendFuzz.Proofs.Session.Quiet
import BackendFuzz.Proofs.Session.Run
import BackendFuzz.Proofs.Session.Scratch
import BackendFuzz.Proofs.Session.TextFiles
import BackendFuzz.Proofs.Session.Tree
import BackendFuzz.Proofs.Text.Blank
import BackendFuzz.Proofs.Text.Lowercase
import BackendFuzz.Proofs.Rewriting.Rules
import BackendFuzz.Proofs.Compiler.Caches
import BackendFuzz.Proofs.Campaign.Requests
import BackendFuzz.Proofs.Program.Versions
import BackendFuzz.Proofs.Compiler.Inputs
