import Casewise.Program.Form
import Casewise.Running.Execute
import Casewise.Typing.Check

/-!
# Sessions

A session reads, checks and runs texts one after the other. It keeps what the texts have declared,
the types of the names and the running machine. Reading, checking and running are separate steps: a
program may be run without being checked, and whatever a step has done before it fails stays done.
-/

namespace Casewise

/-- How deep evaluations may nest if nothing else is said. -/
def usualDepth : Nat := 100000

/-- What is kept from one text to the next. -/
structure Session where
  /-- What the texts read so far have declared. -/
  declared : Declared := {}
  /-- The types of the names. -/
  context : Context := {}
  /-- The running machine. -/
  machine : Machine := {}
  /-- The scope in which statements are executed. -/
  scope : ScopeId := Machine.root
  deriving Inhabited

namespace Session

/-- The session before the first text. It knows the built-in functions if `builtins` says so, and
its machine keeps a record of events if `recording` does. Numbers in texts may have `maxDigits`
digits. -/
def start (builtins : Bool) (recording : Bool := false)
    (maxDigits : Option Nat := some usualDigits) : Session where
  declared := { maxDigits }
  context := { here := if builtins then Builtin.types else ∅ }
  machine := .initial builtins recording

/-- Reads a text by `r`. -/
def read {α : Type} (r : Reading α) (σ : Session) : Except Failure α × Session :=
  let (outcome, declared) := r.run.run σ.declared
  (outcome, { σ with declared })

/-- Checks by `c`. -/
def check {α : Type} (c : Check α) (σ : Session) : Except LangError α × Session :=
  let (outcome, context) := c.run.run σ.context
  (outcome, { σ with context })

/-- Runs by `r`, and tells the lines printed meanwhile. -/
def run {α : Type} (r : ScopeId → Run α) (σ : Session) : Except Stop α × List String × Session :=
  let printed := σ.machine.output.size
  let (outcome, machine) := (r σ.scope).run.run σ.machine
  (outcome, machine.output.toList.drop printed, { σ with machine })

/-- The type of an expression. -/
def typeOf (e : Expr) (σ : Session) : Except LangError Ty :=
  σ.context.infer e

/-- The session in a new level of names inside the current one. -/
def extend (σ : Session) : Session :=
  let (scope, scopes) := σ.machine.scopes.extend σ.scope ∅
  { σ with
    context := σ.context.extend ∅
    machine := { σ.machine with scopes }
    scope }

/-- The session with everything that was read forgotten. -/
def forget (σ : Session) : Session :=
  { σ with declared := { maxDigits := σ.declared.maxDigits } }

/-- The names of the current level with their types, in the order in which they were bound. -/
def types (σ : Session) : List (String × Ty) :=
  σ.context.here.entries

/-- The names of the current level with their values, in the order in which they were bound. -/
def values (σ : Session) : List (String × Value) :=
  (σ.machine.scopes.bindings σ.scope).entries

end Session

end Casewise
