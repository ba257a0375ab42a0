import Casewise.Sexp
import Casewise.Sexp.Token

/-!
# Reading nested forms

Tokens become forms by matching parentheses. `Nest` is the state in between: the forms finished at
the outermost level, and the lists that are open around the next token, the innermost first.

## Main definitions

* `Nest.step`: the effect of one token.
* `read`: all forms of a text.
* `readOne`: the one form of a text that is exactly one.
-/

namespace Casewise

/-- A list whose closing parenthesis has not been read. -/
structure Nest.Frame where
  /-- The span of the opening parenthesis. -/
  opening : Span
  /-- The items read so far, the last one in front. -/
  items : List Sexp
  deriving Repr, Inhabited

/-- What is known about the tokens read so far. -/
structure Nest where
  /-- The open lists, the innermost first. -/
  frames : List Nest.Frame := []
  /-- The finished forms outside of every open list, the last one in front. -/
  forms : List Sexp := []
  deriving Repr, Inhabited

namespace Nest

/-- Adds a finished form to the innermost open list, or to the outermost level. -/
def add (n : Nest) (e : Sexp) : Nest :=
  match n.frames with
  | [] => { n with forms := e :: n.forms }
  | frame :: outer => { n with frames := { frame with items := e :: frame.items } :: outer }

/-- Reads one token. A closing parenthesis that closes nothing is a complaint. -/
def step (n : Nest) (t : Token) : Except CompileError Nest :=
  match t.lexeme with
  | .atom text => .ok (n.add (.atom text t.span))
  | .opening => .ok { n with frames := ⟨t.span, []⟩ :: n.frames }
  | .closing =>
    match n.frames with
    | [] => .error (Malformed.unexpectedClosing.report t.span)
    | frame :: outer =>
      .ok ({ n with frames := outer }.add
        (.list frame.items.reverse (frame.opening.through t.span)))

/-- Reads one token of a text that holds a single form: a token after it is a complaint. -/
def stepOne (n : Nest) (t : Token) : Except CompileError Nest :=
  match n.frames, n.forms with
  | [], _ :: _ => .error ((Malformed.trailingInput t.lexeme.text).report t.span)
  | _, _ => n.step t

/-- The forms read, when the tokens end here. A list that is still open is a complaint about its
opening parenthesis. -/
def finish (n : Nest) : Except CompileError (List Sexp) :=
  match n.frames with
  | [] => .ok n.forms.reverse
  | frame :: _ => .error (Malformed.unclosedOpening.report frame.opening)

end Nest

/-- The forms of the text `source` of the file `file`. -/
def read (file source : String) : Except CompileError (List Sexp) := do
  let stream ← scan file source
  let nest ← stream.tokens.foldlM Nest.step {}
  nest.finish

/-- The form of the text `source` of the file `file`, which must hold exactly one. -/
def readOne (file source : String) : Except CompileError Sexp := do
  let stream ← scan file source
  let nest ← stream.tokens.foldlM Nest.stepOne {}
  match ← nest.finish with
  | [] => throw (Malformed.unexpectedEnd.report stream.stop)
  | e :: _ => pure e

end Casewise
