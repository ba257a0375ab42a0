import Casewise.Ty

/-!
# Built-in functions

The functions that every program may use without defining them, with their types. They take all of
their arguments at once.
-/

namespace Casewise

/-- A built-in function. -/
inductive Builtin where
  /-- The difference of two numbers, zero if it would be negative. -/
  | sub
  /-- The product of two numbers. -/
  | mul
  /-- Whether one number is less than another. -/
  | lt
  /-- Whether one number is at most another. -/
  | le
  /-- Whether two numbers are equal. -/
  | natEq
  /-- Whether two strings are equal. -/
  | strEq
  /-- One string followed by another. -/
  | concat
  /-- The decimal digits of a number, as a string. -/
  | show
  deriving DecidableEq, Repr, Inhabited

namespace Builtin

/-- All built-in functions, in the order in which a program finds them bound. -/
def all : List Builtin :=
  [sub, mul, lt, le, natEq, strEq, concat, .show]

/-- The name that the function is bound to. -/
def name : Builtin → String
  | sub => "-"
  | mul => "*"
  | lt => "<"
  | le => "<="
  | natEq => "nat="
  | strEq => "str="
  | concat => "concat"
  | .show => "show"

/-- The built-in function called `name`. -/
def ofName? (name : String) : Option Builtin :=
  all.find? (·.name = name)

/-- The types of the arguments. -/
def inputs : Builtin → List Ty
  | sub | mul | lt | le | natEq => [.nat, .nat]
  | strEq | concat => [.str, .str]
  | .show => [.nat]

/-- The type of the result. -/
def output : Builtin → Ty
  | sub | mul => .nat
  | lt | le | natEq | strEq => .bool
  | concat | .show => .str

/-- The type of the function. -/
def signature (b : Builtin) : Ty :=
  .arrow b.inputs b.output

/-- The number of arguments. -/
def arity (b : Builtin) : Nat :=
  b.inputs.length

@[simp]
theorem ofName?_name (b : Builtin) : ofName? b.name = some b := by
  cases b <;> rfl

end Builtin

end Casewise
