import Casewise.Command
import Casewise.Command.Outcome
import Casewise.Config
import Casewise.Outline.Program
import Casewise.Session

/-!
# Performing commands

A program is run statement by statement. Unless it is to keep going, the whole program is checked
before the first statement is executed, and the first error ends the run; if it is to keep going,
each statement is checked just before its turn, and a statement that fails in checking is not
executed.

## Main definitions

* `runStatements`: the statements of a program in turn.
* `Command.perform`: the answer to a command.
-/

namespace Casewise

/-- A text that is being run, with what it takes to report errors in it. -/
structure Source where
  /-- The name under which the text is reported. -/
  file : String
  /-- The text. -/
  text : String
  /-- Whether reports are colored. -/
  color : Bool

namespace Source

/-- The report of a diagnostic about the text. -/
def report (s : Source) (d : Diagnostic) : Written :=
  .reported (d.render s.color fun file => if file = s.file then some s.text else none)

/-- The report of an error in checking. -/
def reportCheck (s : Source) (e : LangError) : Written :=
  s.report (e.toDiagnostic (some "while type checking"))

/-- The report of a stop in running. A stop that is no error of the language has no report of its
own: evaluations that nest too deeply, and operators that no text can write, are told as general
errors, and a run that is to keep going goes on after them. These reports are stand-ins: the former
stop is the host running out of stack, and the latter its complaint, and either would end the run
without a report. -/
def reportStop (s : Source) : Stop → Written
  | .error e => s.report (e.toDiagnostic (some "at runtime"))
  | stop => s.report (LangError.toDiagnostic ⟨.general stop.message, none⟩ (some "at runtime"))

end Source

/-- The settings of a run with its options. -/
def RunOptions.apply (o : RunOptions) (c : Config) : Config :=
  { c with
    typecheck := o.typecheck.getD c.typecheck
    keepGoing := c.keepGoing || o.keepGoing
    trace := c.trace || o.trace
    builtins := c.builtins && !o.noBuiltins }

/-- The log lines of the events after the first `count`. -/
def logLines (count : Nat) (m : Machine) : List Written :=
  ((m.record.getD #[]).extract count).toList.map fun e =>
    .logged ("matchbox.interpreter: " ++ e.text)

/-- Executes one statement, and tells what is written meanwhile. -/
def runStatement (depth : Nat) (s : Source) (σ : Session) (st : Stmt) :
    Except Stop Unit × List Written × Session :=
  let (outcome, lines, after) := σ.run (Execute.stmt depth · st)
  let logged := logLines (σ.machine.record.getD #[]).size after.machine
  let reports := match outcome with
    | .ok _ => []
    | .error stop => [s.reportStop stop]
  (outcome, logged ++ reports ++ lines.map .printed, after)

/-- Runs statements in turn. Tells whether all of them succeed, and what is written. -/
def runStatements (depth : Nat) (c : Config) (s : Source) (σ : Session) :
    List Stmt → Bool × List Written
  | [] => (true, [])
  | st :: rest =>
    let (checked, σ) :=
      if c.typecheck && c.keepGoing then σ.check (Check.stmt st) else (.ok (), σ)
    match checked with
    | .error e =>
      let (_, written) := runStatements depth c s σ rest
      (false, s.reportCheck e :: written)
    | .ok _ =>
      match runStatement depth s σ st with
      | (.ok _, first, σ) =>
        let (succeeded, written) := runStatements depth c s σ rest
        (succeeded, first ++ written)
      | (.error _, first, σ) =>
        if c.keepGoing then
          let (_, written) := runStatements depth c s σ rest
          (false, first ++ written)
        else (false, first)

/-- Runs a program with the settings `c`. -/
def runProgram (depth : Nat) (c : Config) (s : Source) (p : Program) : Outcome :=
  let loaded : List Written :=
    if c.trace then
      [.logged ("matchbox.cli: loaded " ++ s.file ++ ": " ++ toString p.length ++ " statements")]
    else []
  let σ := Session.start c.builtins c.trace
  let checked := if c.typecheck && !c.keepGoing then (σ.check (Check.program p)).1 else .ok ()
  match checked with
  | .error e => .failure (loaded ++ [s.reportCheck e])
  | .ok _ =>
    let (succeeded, written) := runStatements depth c s σ p
    ⟨if succeeded then 0 else 1, loaded ++ written⟩

/-- Checks a program. -/
def checkProgram (c : Config) (s : Source) (p : Program) : Outcome :=
  match ((Session.start c.builtins).check (Check.program p)).1 with
  | .error e => .failure [s.reportCheck e]
  | .ok _ => .success [.printed ("checked " ++ s.file ++ ": no errors")]

/-- Why a command is not performed, or breaks off without a report. -/
inductive Refusal where
  /-- The command line is not understood, or its file is missing. -/
  | usage (e : UsageError)
  /-- There are no settings to perform it with. -/
  | config (p : Config.Problem)
  /-- The text has a number with `digits` digits, and a number may have `limit`. -/
  | overlong (limit digits : Nat)
  deriving DecidableEq, Repr

/-- The answer to a text that is not a program: the reports of what is wrong with it. A number that
is not converted has no report. -/
def Source.refuse (s : Source) : Failure → Except Refusal Outcome
  | .compile e => .ok (.failure (e.diagnostics.map s.report))
  | .lang e => .ok (.failure [s.report (e.toDiagnostic none)])
  | .overlong limit digits => .error (.overlong limit digits)

/-- Checks and evaluates an expression. -/
def evalExpr (depth : Nat) (c : Config) (s : Source) : Except Refusal Outcome :=
  let σ := Session.start c.builtins
  match (σ.read (Expr.read s.file s.text)).1 with
  | .error f => s.refuse f
  | .ok e =>
    match σ.typeOf e with
    | .error e => .ok (.failure [s.reportCheck e])
    | .ok ty =>
      match (σ.run (evaluate depth · e)).1 with
      | .error stop => .ok (.failure [s.reportStop stop])
      | .ok v => .ok (.success [.printed (v.display ++ " : " ++ ty.text)])

/-- Reads the program in a file and goes on with it. -/
def withProgram (files : Files) (file : String)
    (settings : Config → Config) (use : Config → Source → Program → Outcome) :
    Except Refusal Outcome := do
  let some text := files.textAt? file | throw (.usage (.missingFile file))
  let c ← (Config.forPlace files (.ofPath files.current file)).mapError .config
  let c := settings c
  let s : Source := ⟨file, String.ofList (Text.unifyNewlines text.toList), c.color⟩
  match parse s.file s.text with
  | .error f => s.refuse f
  | .ok p => return use c s p

namespace Command

/-- The answer to a command, where evaluations may nest less than `depth` deep. -/
def perform (depth : Nat) (files : Files) : Command → Except Refusal Outcome
  | .version => .ok (.success [.printed "matchbox, version 0.1.0"])
  | .run file options => withProgram files file options.apply (runProgram depth)
  | .check file => withProgram files file id checkProgram
  | .eval expr noBuiltins => do
    let c ← (Config.forPlace files files.current).mapError .config
    let c := { c with builtins := c.builtins && !noBuiltins }
    evalExpr depth c ⟨"<expr>", expr, c.color⟩
  | .view file =>
    withProgram files file id fun _ _ p => .success (p.outlineLines.map .printed)

/-- The places whose files a command may read, when it is started in the directory `current`. -/
def places (current : Place) (c : Command) : List Place :=
  match c.file? with
  | some file =>
    let place := Place.ofPath current file
    place :: (Place.ancestors place).map (· ++ [Config.fileName])
  | none => (Place.ancestors current).map (· ++ [Config.fileName])

/-- The places that a command passes on the way to its file, when it is started in the directory
`current`. -/
def passed (current : Place) (c : Command) : List Place :=
  match c.file? with
  | some file => Place.passed (.origin current file) (Place.steps file)
  | none => []

end Command

end Casewise
