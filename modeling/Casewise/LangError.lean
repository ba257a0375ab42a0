import Casewise.Diagnostic

/-!
# Errors of the language

What goes wrong while a program is checked or run. An error has a cause and, once it is known, the
span it happened at: the code that raises an error may leave the span open, and every construct
around it offers its own. The innermost offer wins (`LangError.placedAt_of_isSome`).
-/

namespace Casewise

/-- Why checking or running a program fails. -/
inductive Cause where
  /-- A name or constructor is used that nothing binds. -/
  | unboundName (name : String)
  /-- A name is bound that the same level has bound already. -/
  | redefinition (name : String)
  /-- The callee `what` takes `expected` arguments and was given `got`. -/
  | arityMismatch (what : String) (expected got : Int)
  /-- A type or a kind of value does not fit its place. -/
  | typeMismatch (text : String)
  /-- No arm of a match fits the value. -/
  | nonExhaustiveMatch (text : String)
  /-- The target of an assignment is not a name. -/
  | invalidAssignTarget (text : String)
  /-- An error of no particular kind. -/
  | general (text : String)
  deriving DecidableEq, Repr, Inhabited

namespace Cause

/-- The code under which the cause is reported. -/
def code : Cause → String
  | unboundName _ => "E310"
  | redefinition _ => "E301"
  | arityMismatch .. => "E330"
  | typeMismatch _ => "E321"
  | nonExhaustiveMatch _ => "E371"
  | invalidAssignTarget _ => "E315"
  | general _ => "E000"

/-- The cause in words. -/
def message : Cause → String
  | unboundName name => "unbound name '" ++ name ++ "'"
  | redefinition name => "duplicate definition of '" ++ name ++ "'"
  | arityMismatch what expected got =>
    "wrong number of arguments to " ++ what ++ ": expected " ++ toString expected ++
      ", got " ++ toString got
  | typeMismatch text => text
  | nonExhaustiveMatch text => text
  | invalidAssignTarget text => text
  | general text => text

end Cause

/-- A cause with the place it belongs to, as far as it is known. -/
structure LangError where
  /-- Why it failed. -/
  cause : Cause
  /-- Where it failed. -/
  span : Option Span := none
  deriving DecidableEq, Repr, Inhabited

namespace LangError

/-- The error in words. -/
def message (e : LangError) : String :=
  e.cause.message

/-- The error placed at `span`, unless it has a place already. -/
def placedAt (e : LangError) (span : Option Span) : LangError :=
  { e with span := e.span.or span }

/-- An error that has a place keeps it: `placedAt` gives way to inner offers. -/
theorem placedAt_of_isSome {e : LangError} (h : e.span.isSome) (span : Option Span) :
    e.placedAt span = e := by
  obtain ⟨cause, _ | s⟩ := e
  · simp at h
  · rfl

@[simp]
theorem cause_placedAt (e : LangError) (span : Option Span) : (e.placedAt span).cause = e.cause :=
  rfl

/-- The error as a complaint, with a remark unless the remark is missing or empty. -/
def toDiagnostic (e : LangError) (note : Option String) : Diagnostic where
  code := e.cause.code
  message := e.message
  labels := e.span.toList
  notes := note.toList.filter (· ≠ "")

end LangError

/-- The result `r`, with an error in it placed at `span` unless it has a place already. -/
def located {α : Type} (span : Option Span) (r : Except LangError α) : Except LangError α :=
  r.mapError (·.placedAt span)

/-- Why a text does not become a program: it is malformed, it breaks a rule of the language, or a
number in it is not converted. Only the first is told by a report. -/
inductive Failure where
  /-- The text is malformed. -/
  | compile (error : CompileError)
  /-- The text breaks a rule of the language. -/
  | lang (error : LangError)
  /-- The text has a number with `digits` digits, and a number may have `limit`. -/
  | overlong (limit digits : Nat)
  deriving DecidableEq, Repr, Inhabited

end Casewise
