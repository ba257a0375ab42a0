import Casewise.Value

/-!
# Calling built-in functions

A built-in function checks the kinds of its arguments from left to right. Calling a function of
known arity checks the number of arguments before anything else.

`Builtin.types` and `Builtin.values` are the two tables that a program starts with.
-/

namespace Casewise

/-- Checks that `what`, which takes `expected` arguments, was given so many. -/
def checkCount (what : String) (expected : Int) (args : List Value) : Except LangError Unit :=
  if (args.length : Int) = expected then .ok ()
  else throw { cause := .arityMismatch what expected args.length }

namespace Builtin

/-- The number `v`, as an argument. -/
def number (b : Builtin) : (v : Value) → Except LangError Int
  | .number value => .ok value
  | v =>
    throw
      { cause := .typeMismatch
          ("'" ++ b.name ++ "' expects a number but a " ++ v.kind ++ " was given") }

/-- The string `v`, as an argument. -/
def string (b : Builtin) : (v : Value) → Except LangError String
  | .string value => .ok value
  | v =>
    throw
      { cause := .typeMismatch
          ("'" ++ b.name ++ "' expects a string but a " ++ v.kind ++ " was given") }

/-- The result of `f` on the first two arguments, each checked by `arg`. -/
def onTwo {α : Type} (b : Builtin) (arg : Value → Except LangError α) (f : α → α → Value) :
    (args : List Value) → Except LangError Value
  | [] => throw { cause := .arityMismatch ("'" ++ b.name ++ "'") b.arity 0 }
  | v :: vs => do
    let x ← arg v
    match vs with
    | [] => throw { cause := .arityMismatch ("'" ++ b.name ++ "'") b.arity 1 }
    | w :: _ => return f x (← arg w)

/-- The result of `f` on the first argument, checked by `arg`. -/
def onOne {α : Type} (b : Builtin) (arg : Value → Except LangError α) (f : α → Value) :
    (args : List Value) → Except LangError Value
  | [] => throw { cause := .arityMismatch ("'" ++ b.name ++ "'") b.arity 0 }
  | v :: _ => return f (← arg v)

/-- The result of the function on its first arguments; further arguments do not count. -/
def apply (b : Builtin) (args : List Value) : Except LangError Value :=
  match b with
  | sub => b.onTwo b.number (fun m n => .number (max (m - n) 0)) args
  | mul => b.onTwo b.number (fun m n => .number (m * n)) args
  | lt => b.onTwo b.number (fun m n => .boolean (m < n)) args
  | le => b.onTwo b.number (fun m n => .boolean (m ≤ n)) args
  | natEq => b.onTwo b.number (fun m n => .boolean (m = n)) args
  | strEq => b.onTwo b.string (fun s t => .boolean (s = t)) args
  | concat => b.onTwo b.string (fun s t => .string (s ++ t)) args
  | .show => b.onOne b.number (fun n => .string (toString n)) args

/-- Calls the function, which takes `arity` arguments, or any number if that is `none`. -/
def call (b : Builtin) (arity : Option Int) (args : List Value) : Except LangError Value := do
  if let some expected := arity then
    checkCount ("'" ++ b.name ++ "'") expected args
  b.apply args

/-- The built-in functions with their types. -/
def types : Table Ty :=
  .ofList (all.map fun b => (b.name, b.signature))

/-- The built-in functions as values. -/
def values : Table Value :=
  .ofList (all.map fun b => (b.name, .builtin b))

end Builtin

end Casewise
