/-!
# String literals

A string literal is written between double quotes. Nothing inside it is decoded: the text of the
string is what stands between the quotes, backslashes included.
-/

namespace Casewise.Text

/-- Whether `text` starts with a double quote. -/
def isQuoted (text : String) : Bool :=
  text.toList.head? = some '"'

/-- Whether `text` starts with a double quote and ends with another one. -/
def isStringLiteral (text : String) : Bool :=
  match text.toList with
  | '"' :: rest => rest.getLast? = some '"'
  | _ => false

/-- `text` without its first and its last character. -/
def unquoted (text : String) : String :=
  String.ofList (text.toList.drop 1).dropLast

end Casewise.Text
