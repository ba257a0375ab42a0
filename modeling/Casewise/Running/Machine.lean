import Casewise.Builtin.Call
import Casewise.Program
import Casewise.Text.Quoted

/-!
# The state of a running program

A machine holds the scopes made so far, the printed lines, and, if it is asked to, a record of what
the program did. Running a program changes the machine and may stop early; what the machine holds by
then stays.

## Main definitions

* `Event`, `Event.text`: one entry of the record.
* `Machine`: the state of a running program.
* `Stop`: why running stops before its end.
* `Run`: running with a machine at hand.
-/

namespace Casewise

/-- What a program does, one entry of the record. -/
inductive Event where
  /-- The evaluation of an expression begins. -/
  | evaluating (e : Expr)
  /-- A value was matched with a pattern. -/
  | matched (subject : Value) (pattern : Pattern) (fits : Bool)
  /-- A definition begins. -/
  | define (name : String)
  /-- A line was printed. -/
  | print (text : String)
  /-- An assignment is about to happen. -/
  | assign (name : String)
  /-- A data type was declared. -/
  | data (name : String) (constructors : List String)
  deriving Repr, Inhabited

/-- The event in words. -/
def Event.text : Event → String
  | evaluating e => "evaluating " ++ e.text
  | matched subject pattern fits =>
    "match " ++ subject.display ++ " against " ++ pattern.text ++ ": " ++
      (if fits then "True" else "False")
  | define name => "define " ++ name
  | print text => "print " ++ text
  | assign name => "assign " ++ name
  | data name constructors => "data " ++ name ++ " = " ++ Text.joined " | " constructors

/-- The state of a running program. -/
structure Machine where
  /-- The scopes made so far. -/
  scopes : Forest Value := {}
  /-- The printed lines, in order. -/
  output : Array String := #[]
  /-- The record of events, in order, if one is kept. -/
  record : Option (Array Event) := none
  deriving Inhabited

namespace Machine

/-- The number of the outermost scope of a program. -/
def root : ScopeId := 0

/-- The machine before the first statement. The outermost scope holds the built-in functions if
`builtins` says so, and a record of events is kept if `recording` does. -/
def initial (builtins recording : Bool) : Machine where
  scopes := (Forest.newRoot {} (if builtins then Builtin.values else ∅)).2
  record := if recording then some #[] else none

/-- The machine with the event added to the record, if one is kept. -/
def log (m : Machine) (e : Event) : Machine :=
  { m with record := m.record.map (·.push e) }

/-- The machine after printing a line. -/
def print (m : Machine) (line : String) : Machine :=
  { m with output := m.output.push line }

end Machine

/-- Why running stops before its end. -/
inductive Stop where
  /-- The program breaks a rule of the language. -/
  | error (e : LangError)
  /-- An expression built by hand uses an operator that the language does not know. -/
  | unknownOperator (name : String)
  /-- Expressions are nested deeper than the machine was allowed to go. -/
  | tooDeep
  deriving DecidableEq, Repr

namespace Stop

/-- The stop with an error in it placed at `span`, unless it has a place already. -/
def placedAt (span : Option Span) : Stop → Stop
  | error e => error (e.placedAt span)
  | stop => stop

/-- The reason in words. -/
def message : Stop → String
  | error e => e.message
  | unknownOperator name => "unknown operator: " ++ Text.quoted name
  | tooDeep => "expressions are nested too deeply"

end Stop

/-- Running with a machine at hand, which outlives a stop. -/
abbrev Run := ExceptT Stop (StateM Machine)

namespace Run

/-- Stops with the error `e`. -/
def fail {α : Type} (cause : Cause) (span : Option Span := none) : Run α :=
  throw (.error ⟨cause, span⟩)

/-- The result `r`, or a stop with its error. -/
def ofExcept {α : Type} (r : Except LangError α) : Run α :=
  ExceptT.mk (pure (r.mapError .error))

/-- The result of `x`, with an error in it placed at `span` unless it has a place already. -/
def located {α : Type} (span : Option Span) (x : Run α) : Run α :=
  ExceptT.adapt (Stop.placedAt span) x

/-- Adds an event to the record, if one is kept. -/
def log (e : Event) : Run Unit :=
  modify (·.log e)

/-- What `f` finds in the scopes. -/
def withScopes {α : Type} (f : Forest Value → α) : Run α := do
  return f (← getThe Machine).scopes

/-- Replaces the scopes by what `f` makes of them. -/
def update (f : Forest Value → Except LangError (Forest Value)) : Run Unit := do
  let scopes ← ofExcept (f (← getThe Machine).scopes)
  modify fun m => { m with scopes }

/-- Declares a data type in the registry of the scope `s`. -/
def declare (s : ScopeId) (name : String) (constructors : List (String × List Ty)) : Run Unit :=
  ExceptT.adapt Stop.error
    (onPart Machine.scopes (fun m scopes => { m with scopes }) (Forest.declare s name constructors))

/-- Makes a new scope inside the scope `s`, with the given bindings. -/
def extend (s : ScopeId) (bindings : Table Value) : Run ScopeId :=
  modifyGet fun m =>
    let (t, scopes) := m.scopes.extend s bindings
    (t, { m with scopes })

end Run

end Casewise
