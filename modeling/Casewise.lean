import Casewise.Builtin
import Casewise.Builtin.Call
import Casewise.Command
import Casewise.Command.Outcome
import Casewise.Command.Perform
import Casewise.Config
import Casewise.Config.Toml
import Casewise.Declared
import Casewise.Diagnostic
import Casewise.Diagnostic.Render
import Casewise.Expr
import Casewise.Expr.Form
import Casewise.Files
import Casewise.LangError
import Casewise.Main
import Casewise.Malformed
import Casewise.Outline
import Casewise.Outline.Program
import Casewise.Pattern
import Casewise.Pattern.Fit
import Casewise.Pattern.Form
import Casewise.Program
import Casewise.Program.Form
import Casewise.Proofs.Alongside
import Casewise.Proofs.Command.Drift
import Casewise.Proofs.Command.KeepGoing
import Casewise.Proofs.Command.Reports
import Casewise.Proofs.Command.Turns
import Casewise.Proofs.Diagnostic.Alignment
import Casewise.Proofs.Diagnostic.Underline
import Casewise.Proofs.Outcome
import Casewise.Proofs.Outline.Lines
import Casewise.Proofs.Outline.Programs
import Casewise.Proofs.Pattern.Closed
import Casewise.Proofs.Pattern.Fit
import Casewise.Proofs.Pattern.Instances
import Casewise.Proofs.Pattern.Likeness
import Casewise.Proofs.Pattern.TwoModes
import Casewise.Proofs.Reading.Readable
import Casewise.Proofs.Reading.Reports
import Casewise.Proofs.Reading.Rules
import Casewise.Proofs.Reading.Statements
import Casewise.Proofs.Reading.Strings
import Casewise.Proofs.Reading.WellFormed
import Casewise.Proofs.Running.Building
import Casewise.Proofs.Running.Constructors
import Casewise.Proofs.Running.Failing
import Casewise.Proofs.Running.Ground
import Casewise.Proofs.Running.Growth
import Casewise.Proofs.Running.Leads
import Casewise.Proofs.Running.Matching
import Casewise.Proofs.Running.Model
import Casewise.Proofs.Running.Printing
import Casewise.Proofs.Running.Programs
import Casewise.Proofs.Running.Reached
import Casewise.Proofs.Running.ReadBack
import Casewise.Proofs.Running.Root
import Casewise.Proofs.Running.Safety
import Casewise.Proofs.Running.Termination
import Casewise.Proofs.Running.Unchecked
import Casewise.Proofs.Scope.Forest
import Casewise.Proofs.Scope.History
import Casewise.Proofs.Scope.Index
import Casewise.Proofs.Scope.Lexical
import Casewise.Proofs.Scope.Registry
import Casewise.Proofs.Sexp.Balance
import Casewise.Proofs.Sexp.Blame
import Casewise.Proofs.Sexp.Extent
import Casewise.Proofs.Sexp.Form
import Casewise.Proofs.Sexp.Layout
import Casewise.Proofs.Sexp.Place
import Casewise.Proofs.Sexp.Spelling
import Casewise.Proofs.Spans.Checking
import Casewise.Proofs.Spans.Located
import Casewise.Proofs.Spans.Origins
import Casewise.Proofs.Spans.Reading
import Casewise.Proofs.Spans.Running
import Casewise.Proofs.Spans.Sessions
import Casewise.Proofs.Spans.Syntax
import Casewise.Proofs.Spans.Text
import Casewise.Proofs.Spans.Values
import Casewise.Proofs.Syntax
import Casewise.Proofs.Table
import Casewise.Proofs.Text.Decimal
import Casewise.Proofs.Text.Quoted
import Casewise.Proofs.Ty.Agreement
import Casewise.Proofs.Ty.Congruence
import Casewise.Proofs.Ty.Likeness
import Casewise.Proofs.Ty.Names
import Casewise.Proofs.Typing.Causes
import Casewise.Proofs.Typing.Dangling
import Casewise.Proofs.Typing.EvenArms
import Casewise.Proofs.Typing.Infer
import Casewise.Proofs.Typing.Interchange
import Casewise.Proofs.Typing.Kinds
import Casewise.Proofs.Typing.Likeness
import Casewise.Proofs.Typing.Mentions
import Casewise.Proofs.Typing.Messages
import Casewise.Proofs.Typing.Rules
import Casewise.Proofs.Typing.Statements
import Casewise.Proofs.Typing.Tables
import Casewise.Proofs.Typing.Weakening
import Casewise.Proofs.Value.Inhabits
import Casewise.Proofs.Value.Valid
import Casewise.Proofs.Writing.Expressions
import Casewise.Proofs.Writing.Forms
import Casewise.Proofs.Writing.Patterns
import Casewise.Proofs.Writing.Programs
import Casewise.Proofs.Writing.Sexps
import Casewise.Proofs.Writing.Values
import Casewise.Running.Evaluate
import Casewise.Running.Execute
import Casewise.Running.Machine
import Casewise.Scope.Chain
import Casewise.Scope.Forest
import Casewise.Scope.Registry
import Casewise.Session
import Casewise.Sexp
import Casewise.Sexp.Nest
import Casewise.Sexp.Token
import Casewise.Span
import Casewise.Table
import Casewise.Text.Blank
import Casewise.Text.Color
import Casewise.Text.Decimal
import Casewise.Text.Lines
import Casewise.Text.Literal
import Casewise.Text.Printable
import Casewise.Text.Quoted
import Casewise.Text.Spaced
import Casewise.Ty
import Casewise.Ty.Form
import Casewise.Typing.Check
import Casewise.Typing.Infer
import Casewise.Typing.Subject
import Casewise.Value
import Casewise.Value.Subject
