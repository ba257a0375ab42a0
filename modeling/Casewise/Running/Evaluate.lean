import Casewise.Running.Machine
import Casewise.Text.Literal
import Casewise.Value.Subject

/-!
# Evaluating expressions

Expressions are evaluated from left to right, and arguments before the function is called. A
function body is evaluated in a new scope inside the scope the function was made in, an arm of a
match in a new scope inside the current one.

Evaluation need not end, so `evaluate` is told how deep evaluations may nest. It is one rule for
each form of expression (`Evaluator.step`), tied to itself: the rules call for the values of other
expressions, and these are evaluated one level deeper.
-/

namespace Casewise

/-- A way to find the value of an expression in a scope. -/
abbrev Evaluator := ScopeId → Expr → Run Value

namespace Evaluator

/-- The truth value `v`, which `what` needs at `span`. -/
def truth (what : String) (span : Option Span) : (v : Value) → Run Bool
  | .boolean value => pure value
  | v =>
    Run.fail (.typeMismatch (what ++ " expects a boolean but a " ++ v.kind ++ " was given")) span

/-- The result of a binary operator on two values. -/
def binary (op : BinaryOp) (left right : Value) (span : Option Span) : Run Value :=
  match op with
  | .plus =>
    match left, right with
    | .number m, .number n => pure (.number (m + n))
    | _, _ =>
      Run.fail (.typeMismatch ("'plus' expects two numbers but a " ++ left.kind ++ " and a " ++
        right.kind ++ " were given")) span
  | op => do
    let a ← truth ("'" ++ op.name ++ "'") span left
    let b ← truth ("'" ++ op.name ++ "'") span right
    match op with
    | .eq => return .boolean (a == b)
    | .and => return .boolean (a && b)
    | .or => return .boolean (a || b)
    | op => throw (.unknownOperator op.name)

/-- Calls the value `f` of the expression `head` with arguments. -/
def call (recur : Evaluator) (f : Value) (args : List Value) (head : Expr)
    (span : Option Span) : Run Value :=
  match f with
  | .closure param body scope =>
    match args with
    | [arg] => do
      let inner ← Run.extend scope (.ofList [(param, arg)])
      recur inner body
    | args => Run.fail (.arityMismatch ("'" ++ head.text ++ "'") 1 args.length) span
  | .builtin b => Run.ofExcept (b.call (some b.arity) args)
  | .constructor name arity => do
    Run.ofExcept (checkCount ("'" ++ name ++ "'") arity args)
    return .constructed name args
  | other =>
    Run.fail (.typeMismatch ("expected a function but found '" ++ other.display ++ "'")) head.span

/-- Builds data from its fields. -/
def construct (s : ScopeId) (name : String) (fields : List Value) (span : Option Span) :
    Run Value := do
  match (← Run.withScopes (·.registry s)).constructor? name with
  | none => Run.fail (.unboundName name) span
  | some info =>
    if fields.length ≠ info.arity then
      Run.fail (.arityMismatch ("constructor '" ++ name ++ "'") info.arity fields.length) span
    else return .constructed name fields

/-- The value of the first branch whose pattern fits `subject`. -/
def select (recur : Evaluator) (s : ScopeId) (subject : Value) (span : Option Span) :
    List Pattern → List Expr → Run Value
  | p :: ps, branch :: branches => do
    let registry ← Run.withScopes (·.registry s)
    let bindings ← Run.ofExcept (p.bindings? registry subject)
    Run.log (.matched subject p bindings.isSome)
    match bindings with
    | some bound => do
      let inner ← Run.extend s bound
      recur inner branch
    | none => select recur s subject span ps branches
  | _, _ => Run.fail (.nonExhaustiveMatch ("no pattern matched '" ++ subject.display ++ "'")) span

/-- The value of an expression, by the rule for its form. The values of other expressions are found
by `recur`. -/
def step (recur : Evaluator) (s : ScopeId) : Expr → Run Value
  | .number value _ => pure (.number value)
  | .boolean value _ => pure (.boolean value)
  | .var name span => do
    match ← Run.withScopes (·.get? s name) with
    | some value => return value
    | none =>
      if Text.isQuoted name then return .string (Text.unquoted name)
      else Run.fail (.unboundName name) span
  | .not operand span => do
    let v ← recur s operand
    return .boolean (!(← truth "'not'" span v))
  | .binary op left right span => do
    let a ← recur s left
    let b ← recur s right
    binary op a b span
  | .cond condition thenBranch elseBranch _ => do
    let v ← recur s condition
    if ← truth "'if'" condition.span v then recur s thenBranch else recur s elseBranch
  | .lambda param _ body _ => pure (.closure param body s)
  | .app head args span => do
    let f ← recur s head
    let values ← args.mapM (recur s)
    call recur f values head span
  | .pair first second _ => do
    let a ← recur s first
    let b ← recur s second
    return .pair a b
  | .fst operand span => do
    match ← recur s operand with
    | .pair first _ => return first
    | v => Run.fail (.typeMismatch ("'fst' expects a pair but a " ++ v.kind ++ " was given")) span
  | .snd operand span => do
    match ← recur s operand with
    | .pair _ second => return second
    | v => Run.fail (.typeMismatch ("'snd' expects a pair but a " ++ v.kind ++ " was given")) span
  | .construct name args span => do
    let fields ← args.mapM (recur s)
    construct s name fields span
  | .cases scrutinee patterns branches span => do
    let subject ← recur s scrutinee
    if patterns.length ≠ branches.length then
      Run.fail (.arityMismatch "match" patterns.length branches.length) span
    else select recur s subject span patterns branches

end Evaluator

/-- The value of an expression in the scope `s`, if evaluations nest less than `depth` deep. An
error is placed at the innermost expression around it that has a span. -/
def evaluate : (depth : Nat) → Evaluator
  | 0, _, _ => throw .tooDeep
  | depth + 1, s, e => do
    Run.log (.evaluating e)
    Run.located e.span (Evaluator.step (evaluate depth) s e)

end Casewise
