/-!
# Commands

What the command line can be asked to do. Options of a command may stand before and after its
argument; after a double hyphen nothing is an option any more.

`Command.parse` reads the arguments of the command line.
-/

namespace Casewise

/-- The options of running a program. Options that are not given leave the settings as they are. -/
structure RunOptions where
  /-- Whether the program is checked first. -/
  typecheck : Option Bool := none
  /-- Go on after a statement that fails. -/
  keepGoing : Bool := false
  /-- Log events. -/
  trace : Bool := false
  /-- Leave out the built-in functions. -/
  noBuiltins : Bool := false
  deriving DecidableEq, Repr, Inhabited

/-- What the command line is asked to do. -/
inductive Command where
  /-- Tell the version. -/
  | version
  /-- Run the program in a file. -/
  | run (file : String) (options : RunOptions)
  /-- Check the program in a file. -/
  | check (file : String)
  /-- Check and evaluate a single expression. -/
  | eval (expr : String) (noBuiltins : Bool)
  /-- Show the outline of the program in a file. -/
  | view (file : String)
  deriving DecidableEq, Repr, Inhabited

/-- Why the arguments of the command line are not understood. -/
inductive UsageError where
  /-- There is no command. -/
  | commandExpected
  /-- A command of this name is not known. -/
  | unknownCommand (name : String)
  /-- An option of this name is not known. -/
  | unknownOption (name : String)
  /-- The argument of the command is missing. -/
  | argumentExpected
  /-- There is one argument too many. -/
  | unexpectedArgument (text : String)
  /-- There is no file at this path. -/
  | missingFile (path : String)
  deriving DecidableEq, Repr

/-- The problem in words. -/
def UsageError.message : UsageError → String
  | commandExpected => "Missing command."
  | unknownCommand name => "No such command '" ++ name ++ "'."
  | unknownOption name => "No such option: " ++ name
  | argumentExpected => "Missing argument."
  | unexpectedArgument text => "Got unexpected extra argument (" ++ text ++ ")"
  | missingFile path => "File '" ++ path ++ "' does not exist."

namespace Command

/-- Whether the argument `text` is an option. -/
def isOption (text : String) : Bool :=
  match text.toList with
  | '-' :: _ :: _ => true
  | _ => false

/-- The options and the arguments of a command, each in order. -/
def split : List String → List String × List String
  | [] => ([], [])
  | "--" :: rest => ([], rest)
  | text :: rest =>
    let (options, args) := split rest
    if isOption text then (text :: options, args) else (options, text :: args)

/-- The one argument of a command. -/
def onlyArgument : List String → Except UsageError String
  | [] => throw .argumentExpected
  | [arg] => .ok arg
  | _ :: extra :: _ => throw (.unexpectedArgument extra)

/-- Adds an option of running a program. -/
def addRunOption (o : RunOptions) (name : String) : Except UsageError RunOptions :=
  match name with
  | "--check" => .ok { o with typecheck := some true }
  | "--no-check" => .ok { o with typecheck := some false }
  | "--keep-going" => .ok { o with keepGoing := true }
  | "--trace" => .ok { o with trace := true }
  | "--no-prelude" => .ok { o with noBuiltins := true }
  | name => throw (.unknownOption name)

/-- Adds an option of evaluating an expression. -/
def addEvalOption (_ : Bool) (name : String) : Except UsageError Bool :=
  match name with
  | "--no-prelude" => .ok true
  | name => throw (.unknownOption name)

/-- The complaint about options of a command that has none. -/
def noOptions : List String → Except UsageError Unit
  | [] => .ok ()
  | name :: _ => throw (.unknownOption name)

/-- The command called `name` with what follows on the command line. -/
def ofName (name : String) (rest : List String) : Except UsageError Command := do
  let (options, args) := split rest
  match name with
  | "run" =>
    let o ← options.foldlM addRunOption {}
    return .run (← onlyArgument args) o
  | "check" =>
    noOptions options
    return .check (← onlyArgument args)
  | "eval" =>
    let noBuiltins ← options.foldlM addEvalOption false
    return .eval (← onlyArgument args) noBuiltins
  | "view" =>
    noOptions options
    return .view (← onlyArgument args)
  | name => throw (.unknownCommand name)

/-- The command that the arguments of the command line ask for. -/
def parse : List String → Except UsageError Command
  | [] => throw .commandExpected
  | "--version" :: _ => .ok .version
  | "--" :: name :: rest => ofName name rest
  | name :: rest => if isOption name then throw (.unknownOption name) else ofName name rest

/-- The path of the file that the command reads. -/
def file? : Command → Option String
  | .run file _ => some file
  | .check file => some file
  | .view file => some file
  | .version => none
  | .eval .. => none

end Command

end Casewise
