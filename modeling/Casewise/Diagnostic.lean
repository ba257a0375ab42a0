import Casewise.Span
import Casewise.Text.Spaced

/-!
# Diagnostics

A diagnostic is one complaint about a program: a code, a message, the spans it points at and
further notes. `CompileError` is what a rejected text is answered with: one diagnostic or more.
-/

namespace Casewise

/-- One complaint about a program. -/
structure Diagnostic where
  /-- The code of this kind of complaint. -/
  code : String
  /-- What is wrong. -/
  message : String
  /-- The places it points at. -/
  labels : List Span := []
  /-- Further remarks. -/
  notes : List String := []
  deriving DecidableEq, Repr, Inhabited

/-- The complaints about a text that is not a program. -/
structure CompileError where
  /-- The complaints, in order. -/
  diagnostics : List Diagnostic
  deriving DecidableEq, Repr, Inhabited

/-- The complaints in one line: their number and their messages. -/
def CompileError.message (e : CompileError) : String :=
  toString e.diagnostics.length ++ " error(s): " ++
    Text.joined "; " (e.diagnostics.map Diagnostic.message)

end Casewise
