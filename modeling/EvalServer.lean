import EvalServer.Text.Blank
import EvalServer.Text.Decimal
import EvalServer.Text.Utf8
import EvalServer.Text.Quoted
import EvalServer.Sexp.Printer
import EvalServer.Sexp.Reader
import EvalServer.Proofs.Sexp.Lexing
import EvalServer.Proofs.Sexp.RoundTrip
import EvalServer.Proofs.Sexp.Grammar
import EvalServer.Proofs.Sexp.Recognition
import EvalServer.Proofs.Sexp.Lines
import EvalServer.Proofs.Sexp.Faults
import EvalServer.Proofs.Sexp.Composition
import EvalServer.Frame.Delivery
import EvalServer.Frame.Transmission
import EvalServer.Proofs.Frame.Coding
import EvalServer.Proofs.Frame.Operator
import EvalServer.Proofs.Frame.Stream
import EvalServer.Proofs.Frame.Classification
import EvalServer.Proofs.Frame.Leading
import EvalServer.Proofs.Sexp.Heads
import EvalServer.Proofs.Frame.Requests
import EvalServer.Message.Client
import EvalServer.Message.Server
import EvalServer.Handshake
import EvalServer.File.Source
import EvalServer.Proofs.File.Paths
import EvalServer.Proofs.File.Writing
import EvalServer.Evaluation.Script
import EvalServer.Proofs.Evaluation.Contract
import EvalServer.Proofs.Evaluation.Values
import EvalServer.Proofs.Evaluation.Answers
import EvalServer.Proofs.Evaluation.Scripts
import EvalServer.Proofs.Evaluation.Definitions
import EvalServer.Proofs.Evaluation.Loading
import EvalServer.Proofs.Message.Events
import EvalServer.Proofs.Message.Shapes
import EvalServer.Proofs.Evaluation.CheckPoints
import EvalServer.Proofs.Evaluation.Interruption
import EvalServer.Proofs.Evaluation.Sources
import EvalServer.Proofs.Evaluation.Texts
import EvalServer.Proofs.Evaluation.Termination
import EvalServer.Proofs.Evaluation.Completions
import EvalServer.Proofs.Evaluation.CoreLanguage
import EvalServer.Proofs.Evaluation.Parts
import EvalServer.Proofs.Evaluation.Attribution
import EvalServer.Proofs.Evaluation.Growth
import EvalServer.Proofs.Evaluation.Integers
import EvalServer.Proofs.Evaluation.Division
import EvalServer.Proofs.Text.WellFormed
import EvalServer.Session.Active
import EvalServer.Session.Indentation
import EvalServer.Session.Prompts
import EvalServer.Session.Quit
import EvalServer.Session.Basic
import EvalServer.Session.Lifecycle
import EvalServer.Session.Control
import EvalServer.Session.Evaluator
import EvalServer.Session.Output
import EvalServer.Session.Reader
import EvalServer.Session.Step
import EvalServer.Proofs.Session.Evaluation
import EvalServer.Proofs.Session.History
import EvalServer.Proofs.Session.Traffic
import EvalServer.Proofs.Session.Moves
import EvalServer.Proofs.Session.Turns
import EvalServer.Proofs.Session.Desk
import EvalServer.Proofs.Session.Ledger
import EvalServer.Proofs.Session.Results
import EvalServer.Proofs.Session.Correlation
import EvalServer.Proofs.Session.Roles
import EvalServer.Proofs.Session.ActiveActors
import EvalServer.Proofs.Session.Quiescence
import EvalServer.Proofs.Session.Interrupts
import EvalServer.Proofs.Session.PromptHistory
import EvalServer.Proofs.Session.Frames
import EvalServer.Proofs.Session.Wire
import EvalServer.Proofs.Session.Asking
import EvalServer.Proofs.Session.QuestionAccounts
import EvalServer.Proofs.Session.Withdrawal
import EvalServer.Proofs.Session.Closing
import EvalServer.Proofs.Session.Teardown
import EvalServer.Proofs.Session.Belongings
import EvalServer.Proofs.Session.Reading
import EvalServer.Proofs.Session.Ending
import EvalServer.Proofs.Session.Mailboxes
import EvalServer.Proofs.Session.Staff
import EvalServer.Proofs.Session.Targets
import EvalServer.Proofs.Session.Designators
import EvalServer.Proofs.Session.Dismissal
import EvalServer.Proofs.Session.Hints
import EvalServer.Proofs.Session.Quitting
import EvalServer.Proofs.Session.ReaderMail
import EvalServer.Proofs.Session.Leaving
import EvalServer.Proofs.Session.Forwarding
import EvalServer.Toml.Literal
import EvalServer.Toml.Number
import EvalServer.Toml.Reader
import EvalServer.Toml.Writer
import EvalServer.Proofs.Toml.Strings
import EvalServer.Proofs.Toml.Numbers
import EvalServer.Proofs.Toml.Documents
import EvalServer.Command.LogFilter
import EvalServer.Config.Basic
import EvalServer.Config.File
import EvalServer.Proofs.Config.Saving
import EvalServer.Command.Invocation
import EvalServer.Server.Basic
import EvalServer.Server.Listening
import EvalServer.Server.Step
import EvalServer.Proofs.Server.Steps
import EvalServer.Proofs.Server.Sessions
import EvalServer.Proofs.Server.Isolation
import EvalServer.Proofs.Server.Admission
import EvalServer.Proofs.Server.Gate
import EvalServer.Proofs.Server.Shutdown
import EvalServer.Proofs.Server.Listeners
import EvalServer.Proofs.Server.Calls
import EvalServer.Proofs.Server.QuitRequests
import EvalServer.Main
import EvalServer.Pattern.Basic
import EvalServer.Pattern.Check
