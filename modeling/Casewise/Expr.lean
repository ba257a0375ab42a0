import Casewise.Pattern
import Casewise.Ty

/-!
# Expressions

The expressions of the language. A name that starts with a double quote doubles as a string literal:
it reads as the text between its quotes as long as nothing binds it. Expressions know the span they
were read from; it takes no part in `Expr.same`, which compares expressions.

`Expr.text` writes an expression the way a program does.
-/

namespace Casewise

/-- The binary operators. Any other name may stand in an expression built by hand. -/
inductive BinaryOp where
  /-- The sum of two numbers. -/
  | plus
  /-- Whether two truth values are equal. -/
  | eq
  /-- Whether both truth values are true. -/
  | and
  /-- Whether one of two truth values is true. -/
  | or
  /-- An operator that the language does not know. -/
  | other (name : String) (unknown : name ∉ ["plus", "eq", "and", "or"])
  deriving DecidableEq, Repr

namespace BinaryOp

/-- The name under which the operator appears in messages. -/
def name : BinaryOp → String
  | plus => "plus"
  | eq => "eq"
  | and => "and"
  | or => "or"
  | other name _ => name

/-- The operator called `name`. -/
def ofName (name : String) : BinaryOp :=
  if h₁ : name = "plus" then plus
  else if h₂ : name = "eq" then eq
  else if h₃ : name = "and" then and
  else if h₄ : name = "or" then or
  else other name (by simp [h₁, h₂, h₃, h₄])

/-- The operator as a program writes it. -/
def symbol : BinaryOp → String
  | plus => "+"
  | eq => "="
  | and => "and"
  | or => "or"
  | other name _ => name

/-- The operator that a program writes as `symbol`. -/
def ofSymbol? (symbol : String) : Option BinaryOp :=
  if symbol = "+" then some plus
  else if symbol = "=" then some eq
  else if symbol = "and" then some and
  else if symbol = "or" then some or
  else none

/-- Every name is the `BinaryOp.name` of one operator. -/
@[simp]
theorem name_ofName (name : String) : (ofName name).name = name := by
  unfold ofName
  split
  · next h => exact h.symm
  · split
    · next h => exact h.symm
    · split
      · next h => exact h.symm
      · split
        · next h => exact h.symm
        · rfl

/-- An operator is determined by its `name`. -/
@[simp]
theorem ofName_name (op : BinaryOp) : ofName op.name = op := by
  cases op with
  | other name unknown =>
    simp only [List.mem_cons, List.not_mem_nil, or_false, not_or] at unknown
    obtain ⟨h₁, h₂, h₃, h₄⟩ := unknown
    simp [BinaryOp.name, ofName, h₁, h₂, h₃, h₄]
  | _ => rfl

end BinaryOp

/-- An expression. -/
inductive Expr where
  /-- A name, or a string literal with its quotes. -/
  | var (name : String) (span : Option Span)
  | number (value : Int) (span : Option Span)
  | boolean (value : Bool) (span : Option Span)
  /-- The negation of a truth value. -/
  | not (operand : Expr) (span : Option Span)
  /-- A binary operator applied to two operands. -/
  | binary (op : BinaryOp) (left right : Expr) (span : Option Span)
  /-- A choice between two branches. -/
  | cond (condition thenBranch elseBranch : Expr) (span : Option Span)
  /-- A function of one parameter. -/
  | lambda (param : String) (paramTy : Ty) (body : Expr) (span : Option Span)
  /-- A function applied to arguments. -/
  | app (head : Expr) (args : List Expr) (span : Option Span)
  | pair (first second : Expr) (span : Option Span)
  /-- The first component of a pair. -/
  | fst (operand : Expr) (span : Option Span)
  /-- The second component of a pair. -/
  | snd (operand : Expr) (span : Option Span)
  /-- A constructor applied to fields. -/
  | construct (name : String) (args : List Expr) (span : Option Span)
  /-- A choice by the first pattern that fits; the patterns and the branches pair up in order. -/
  | cases (scrutinee : Expr) (patterns : List Pattern) (branches : List Expr)
    (span : Option Span)
  deriving Repr, Inhabited

namespace Expr

/-- The span the expression was read from. -/
def span : Expr → Option Span
  | var _ span => span
  | number _ span => span
  | boolean _ span => span
  | not _ span => span
  | binary _ _ _ span => span
  | cond _ _ _ span => span
  | lambda _ _ _ span => span
  | app _ _ span => span
  | pair _ _ span => span
  | fst _ span => span
  | snd _ span => span
  | construct _ _ span => span
  | cases _ _ _ span => span

mutual

/-- The expression as a program writes it. A constructor without fields is written as an atom, and
patterns or branches without a partner are left out. -/
def text : Expr → String
  | var name _ => name
  | number value _ => toString value
  | boolean value _ => if value then "true" else "false"
  | not operand _ => Text.parenthesized ["not", text operand]
  | binary op left right _ => Text.parenthesized [op.symbol, text left, text right]
  | cond condition thenBranch elseBranch _ =>
    Text.parenthesized ["if", text condition, text thenBranch, text elseBranch]
  | lambda param paramTy body _ =>
    Text.parenthesized ["lambda", param, paramTy.text, text body]
  | app head args _ => Text.parenthesized (text head :: texts args)
  | pair first second _ => Text.parenthesized ["pair", text first, text second]
  | fst operand _ => Text.parenthesized ["fst", text operand]
  | snd operand _ => Text.parenthesized ["snd", text operand]
  | construct name [] _ => name
  | construct name (arg :: args) _ => Text.parenthesized (name :: texts (arg :: args))
  | cases scrutinee patterns branches _ =>
    Text.parenthesized
      ["match", text scrutinee, Text.parenthesized (armTexts patterns branches)]

/-- The expressions written out one by one. -/
def texts : List Expr → List String
  | [] => []
  | e :: es => text e :: texts es

/-- The patterns and branches written out in turn, as far as they pair up. -/
def armTexts : List Pattern → List Expr → List String
  | p :: ps, e :: es => p.text :: text e :: armTexts ps es
  | _, _ => []

end

mutual

/-- Whether two expressions are equal apart from their spans. -/
def same : Expr → Expr → Bool
  | var name _, var name' _ => name = name'
  | number value _, number value' _ => value = value'
  | boolean value _, boolean value' _ => value = value'
  | not operand _, not operand' _ => same operand operand'
  | binary op left right _, binary op' left' right' _ =>
    op = op' && same left left' && same right right'
  | cond condition thenBranch elseBranch _, cond condition' thenBranch' elseBranch' _ =>
    same condition condition' && same thenBranch thenBranch' && same elseBranch elseBranch'
  | lambda param paramTy body _, lambda param' paramTy' body' _ =>
    param = param' && paramTy = paramTy' && same body body'
  | app head args _, app head' args' _ => same head head' && sameAll args args'
  | pair first second _, pair first' second' _ => same first first' && same second second'
  | fst operand _, fst operand' _ => same operand operand'
  | snd operand _, snd operand' _ => same operand operand'
  | construct name args _, construct name' args' _ => name = name' && sameAll args args'
  | cases scrutinee patterns branches _, cases scrutinee' patterns' branches' _ =>
    same scrutinee scrutinee' && Pattern.sameAll patterns patterns' && sameAll branches branches'
  | _, _ => false

/-- Whether two lists of expressions are equal apart from spans. -/
def sameAll : List Expr → List Expr → Bool
  | [], [] => true
  | e :: es, f :: fs => same e f && sameAll es fs
  | _, _ => false

end

end Expr

end Casewise
