import Casewise.LangError

/-!
# Malformed texts

Why a text is not a program. `Malformed` lists the reasons in the three layers of reading: the
characters do not fall into tokens, the tokens do not nest, or a nested form is no form of the
language. Each has a code and a wording, and is reported as one diagnostic.
-/

namespace Casewise

/-- Why a text is not a program. -/
inductive Malformed where
  /-- A string is opened and never closed. -/
  | unterminatedString
  /-- A closing parenthesis matches no opening one. -/
  | unexpectedClosing
  /-- The text ends where a form should start. -/
  | unexpectedEnd
  /-- An opening parenthesis is never closed. -/
  | unclosedOpening
  /-- The token `token` follows a text that should be one form. -/
  | trailingInput (token : String)
  /-- The form `form` takes `expected` arguments and was given `given`. -/
  | argumentCount (form : String) (expected given : Nat)
  /-- An arrow type has fewer than two components. -/
  | arrowTooShort (given : Nat)
  /-- A statement is the single atom `text`. -/
  | atomStatement (text : String)
  /-- A statement does not start with an atom. -/
  | headlessStatement
  /-- A statement of no known form. -/
  | unknownStatement (form : String)
  /-- The name that a definition gives is not an atom. -/
  | definedNameExpected
  /-- A data declaration does not name its type. -/
  | typeNameExpected
  /-- A constructor declaration does not start with an atom. -/
  | constructorNameExpected
  /-- A type that is neither built in nor declared. -/
  | unknownType (text : String)
  /-- A structured pattern does not start with an atom. -/
  | patternHeadExpected
  /-- An expression is the empty list. -/
  | emptyExpression
  /-- The parameter of a function is the list `given`. -/
  | parameterExpected (given : String)
  /-- The arms of a match are the atom `given`. -/
  | armsExpected (given : String)
  /-- The arms of a match do not pair up. -/
  | oddArms (given : Nat)
  deriving DecidableEq, Repr

namespace Malformed

/-- The code under which a malformed text is reported. -/
def code : Malformed → String
  | unterminatedString => "E100"
  | unexpectedClosing => "E101"
  | unexpectedEnd => "E102"
  | unclosedOpening => "E102"
  | trailingInput _ => "E103"
  | argumentCount .. => "E200"
  | arrowTooShort _ => "E200"
  | definedNameExpected => "E200"
  | typeNameExpected => "E200"
  | constructorNameExpected => "E200"
  | patternHeadExpected => "E200"
  | emptyExpression => "E200"
  | parameterExpected _ => "E200"
  | armsExpected _ => "E200"
  | oddArms _ => "E200"
  | unknownType _ => "E201"
  | atomStatement _ => "E202"
  | headlessStatement => "E202"
  | unknownStatement _ => "E202"

/-- What is wrong with the text, in words. -/
def message : Malformed → String
  | unterminatedString => "unterminated string literal"
  | unexpectedClosing => "unexpected ')'"
  | unexpectedEnd => "unexpected end of input"
  | unclosedOpening => "unexpected end of input: unclosed '('"
  | trailingInput token => "input not completely consumed: '" ++ token ++ "'"
  | argumentCount form expected given =>
    "'" ++ form ++ "' expects " ++ toString expected ++
      (if expected = 1 then " argument" else " arguments") ++
      " but " ++ toString given ++ " were given"
  | arrowTooShort given =>
    "'->' expects at least 2 arguments but " ++ toString given ++ " were given"
  | atomStatement text => "an atom cannot be a statement: '" ++ text ++ "'"
  | headlessStatement => "identifier expected at head of statement"
  | unknownStatement form => "unknown statement form '" ++ form ++ "'"
  | definedNameExpected => "'define' expects its first argument to be an identifier"
  | typeNameExpected => "'data' expects a type name"
  | constructorNameExpected => "constructor name expected"
  | unknownType text => "unknown type '" ++ text ++ "'"
  | patternHeadExpected => "pattern head must be a constructor or 'pair'"
  | emptyExpression => "empty expression list encountered"
  | parameterExpected given =>
    "'lambda' expects its first argument to be an identifier but " ++ given ++ " was given"
  | armsExpected given =>
    "'match' expects a list of patterns and expressions but " ++ given ++ " was given"
  | oddArms given =>
    "'match' expects an even number of list arguments but " ++ toString given ++ " were given"

/-- The report of a malformed text, pointing at `span`. -/
def report (m : Malformed) (span : Span) : CompileError where
  diagnostics := [{ code := m.code, message := m.message, labels := [span] }]

/-- The failure of reading a malformed text, pointing at `span`. -/
def failure (m : Malformed) (span : Span) : Failure :=
  .compile (m.report span)

end Malformed

end Casewise
