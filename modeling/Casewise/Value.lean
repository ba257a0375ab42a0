import Casewise.Builtin
import Casewise.Expr
import Casewise.Scope.Forest

/-!
# Values

What expressions evaluate to. A closure is a function written in a program, together with the number
of the scope it was made in; built-in functions and declared constructors are functions as well.

`Value.display` is the text that a program prints; a string is printed between quotes.
-/

namespace Casewise

/-- A value. -/
inductive Value where
  | number (value : Int)
  | boolean (value : Bool)
  /-- A string, here without quotes. -/
  | string (value : String)
  /-- A function written in a program, and the scope it was made in. -/
  | closure (param : String) (body : Expr) (scope : ScopeId)
  /-- A built-in function. -/
  | builtin (function : Builtin)
  /-- A constructor as a function of `arity` fields. -/
  | constructor (name : String) (arity : Nat)
  | pair (first second : Value)
  /-- What a constructor built from its fields. -/
  | constructed (name : String) (fields : List Value)
  deriving Repr, Inhabited

namespace Value

mutual

/-- The text of a value, as a program prints it. -/
def display : Value → String
  | number value => toString value
  | boolean value => if value then "true" else "false"
  | string value => "\"" ++ value ++ "\""
  | closure param _ _ => "<closure " ++ param ++ ">"
  | builtin function => "<primitive " ++ function.name ++ ">"
  | constructor name _ => "<primitive " ++ name ++ ">"
  | pair first second => Text.parenthesized ["pair", display first, display second]
  | constructed name fields => Text.parenthesized (name :: displays fields)

/-- The texts of values, one by one. -/
def displays : List Value → List String
  | [] => []
  | v :: vs => display v :: displays vs

end

/-- The kind of a value, as messages name it. -/
def kind : Value → String
  | number _ => "number"
  | boolean _ => "boolean"
  | string _ => "string"
  | closure .. => "function"
  | builtin _ => "function"
  | constructor .. => "function"
  | pair .. => "pair"
  | constructed name _ => "'" ++ name ++ "' value"

end Value

end Casewise
