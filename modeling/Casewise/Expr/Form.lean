import Casewise.Pattern.Form
import Casewise.Ty.Form

/-!
# Reading expressions

An atom is a truth value, a number, a constructor without fields, or else a name. A list is what its
head says: one of the built-in forms, a constructor with its fields, or, with any other head, a
function applied to arguments. `Head.of` is that decision; the built-in forms come before the
declared constructors. A number with too many digits is not read.
-/

namespace Casewise

/-- What the head of a list makes of the list. -/
inductive Head where
  /-- A binary operator with its operands. -/
  | binary (op : BinaryOp)
  | not
  /-- The first component of a pair. -/
  | fst
  /-- The second component of a pair. -/
  | snd
  /-- A choice between two branches. -/
  | cond
  | lambda
  | pair
  /-- A choice by patterns. -/
  | cases
  /-- The constructor `name` with its fields. -/
  | construct (name : String)
  /-- A function with its arguments. -/
  | app
  deriving DecidableEq, Repr

/-- What the form `head` makes of a list that starts with it, after the declarations `d`. -/
def Head.of (d : Declared) : Sexp → Head
  | .list .. => .app
  | .atom text _ =>
    match BinaryOp.ofSymbol? text with
    | some op => .binary op
    | none =>
      if text = "not" then .not
      else if text = "fst" then .fst
      else if text = "snd" then .snd
      else if text = "if" then .cond
      else if text = "lambda" then .lambda
      else if text = "pair" then .pair
      else if text = "match" then .cases
      else if d.constructors.contains text then .construct text
      else .app

/-- The forms at the first, third, fifth and so on place, where another one follows. -/
def armPatterns : List Sexp → List Sexp
  | pattern :: _ :: arms => pattern :: armPatterns arms
  | _ => []

namespace Expr

/-- The expression that the atom `text` writes, after the declarations `d`. -/
def ofAtom (d : Declared) (text : String) (span : Option Span) : Expr :=
  if text = "true" then .boolean true span
  else if text = "false" then .boolean false span
  else
    match Text.decimal? text with
    | some value => .number value span
    | none => if d.isNullary text then .construct text [] span else .var text span

/-- The complaint that the form `form` takes `expected` arguments and was given `args`. -/
def wrongCount (form : String) (expected : Nat) (args : List Sexp) (span : Span) :
    Except Failure Expr :=
  throw ((Malformed.argumentCount form expected args.length).failure span)

mutual

/-- The expression that a form writes, after the declarations `d`. -/
def ofSexp (d : Declared) : Sexp → Except Failure Expr
  | .atom text span => d.converted text (ofAtom d text span)
  | .list [] span => throw (Malformed.emptyExpression.failure span)
  | .list (head :: args) span =>
    match Head.of d head, args with
    | .binary op, [left, right] => do
      let left ← ofSexp d left
      let right ← ofSexp d right
      return .binary op left right span
    | .binary op, args => wrongCount op.symbol 2 args span
    | .not, [operand] => return .not (← ofSexp d operand) span
    | .not, args => wrongCount "not" 1 args span
    | .fst, [operand] => return .fst (← ofSexp d operand) span
    | .fst, args => wrongCount "fst" 1 args span
    | .snd, [operand] => return .snd (← ofSexp d operand) span
    | .snd, args => wrongCount "snd" 1 args span
    | .cond, [condition, thenBranch, elseBranch] => do
      let condition ← ofSexp d condition
      let thenBranch ← ofSexp d thenBranch
      let elseBranch ← ofSexp d elseBranch
      return .cond condition thenBranch elseBranch span
    | .cond, args => wrongCount "if" 3 args span
    | .lambda, [.atom param _, paramTy, body] => do
      let paramTy ← Ty.ofSexp d paramTy
      let body ← ofSexp d body
      return .lambda param paramTy body span
    | .lambda, [param, _, _] => throw ((Malformed.parameterExpected param.text).failure param.span)
    | .lambda, args => wrongCount "lambda" 3 args span
    | .pair, [first, second] => do
      let first ← ofSexp d first
      let second ← ofSexp d second
      return .pair first second span
    | .pair, args => wrongCount "pair" 2 args span
    | .cases, [_, .atom text armsSpan] => throw ((Malformed.armsExpected text).failure armsSpan)
    | .cases, [scrutinee, .list arms armsSpan] => do
      if arms.length % 2 ≠ 0 then
        throw ((Malformed.oddArms arms.length).failure armsSpan)
      let patterns ← Pattern.ofSexps d (armPatterns arms)
      let branches ← ofArms d arms
      let scrutinee ← ofSexp d scrutinee
      return .cases scrutinee patterns branches span
    | .cases, args => wrongCount "match" 2 args span
    | .construct name, args => return .construct name (← ofSexps d args) span
    | .app, args => do
      let head ← ofSexp d head
      let args ← ofSexps d args
      return .app head args span

/-- The expressions that forms write, in order. -/
def ofSexps (d : Declared) : List Sexp → Except Failure (List Expr)
  | [] => .ok []
  | e :: es => do
    let expr ← ofSexp d e
    let exprs ← ofSexps d es
    return expr :: exprs

/-- The expressions that the second, fourth, sixth and so on form write, in order. -/
def ofArms (d : Declared) : List Sexp → Except Failure (List Expr)
  | _ :: branch :: arms => do
    let expr ← ofSexp d branch
    let exprs ← ofArms d arms
    return expr :: exprs
  | _ => .ok []

end

end Expr

end Casewise
