import Casewise.Diagnostic.Render
import Casewise.LangError

/-!
# What a command answers

A command writes lines of three kinds, in order: printed lines go to the standard output, reports
and log lines to the standard error. Where the output is not a terminal, colors are removed from
printed lines and reports; log lines stay as they are.
-/

namespace Casewise

/-- A line that a command writes. -/
inductive Written where
  /-- A line of the output. -/
  | printed (text : String)
  /-- A report of an error. -/
  | reported (text : String)
  /-- A line of the log. -/
  | logged (text : String)
  deriving DecidableEq, Repr, Inhabited

namespace Written

/-- What the line adds to the standard output, where colors are removed. -/
def stdout : Written → String
  | printed text => Text.stripColor text ++ "\n"
  | reported _ => ""
  | logged _ => ""

/-- What the line adds to the standard error, where colors are removed. -/
def stderr : Written → String
  | printed _ => ""
  | reported text => Text.stripColor text ++ "\n"
  | logged text => text ++ "\n"

end Written

/-- What a command answers. -/
structure Outcome where
  /-- The exit status. -/
  status : Nat
  /-- The written lines, in order. -/
  written : List Written
  deriving DecidableEq, Repr, Inhabited

namespace Outcome

/-- The answer of a command that succeeds. -/
def success (written : List Written) : Outcome :=
  ⟨0, written⟩

/-- The answer of a command that fails. -/
def failure (written : List Written) : Outcome :=
  ⟨1, written⟩

/-- All of the standard output. -/
def stdout (o : Outcome) : String :=
  String.join (o.written.map Written.stdout)

/-- All of the standard error. -/
def stderr (o : Outcome) : String :=
  String.join (o.written.map Written.stderr)

end Outcome

end Casewise
