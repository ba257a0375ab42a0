import Casewise.Expr
import Casewise.Text.Literal
import Casewise.Typing.Subject
import Casewise.Scope.Chain

/-!
# Types of expressions

Every expression has a type that follows from its parts and from what its names mean: literals have
their own types, parameters carry theirs, and constructors are declared. Nothing is guessed. An
expression without a type is an error, placed at the innermost expression around it that has a span.

The branches of a conditional need only have the same tag. Which pairs of branch types are accepted
is a parameter of the rules (`inferWith`), so that stricter rules can be compared with the rules of
the language (`infer`).

## Main definitions

* `Context`: what names mean while a program is checked.
* `Context.inferWith`, `Context.infer`: the type of an expression.
-/

namespace Casewise

/-- What names mean while a program is checked: their types. -/
abbrev Context := Chain Ty

/-- The error that `found` stands where `expected` should, in the place `place`. -/
def mismatch (expected : String) (found : Ty) (place : String) (span : Option Span) : LangError :=
  ⟨.typeMismatch
    ("type mismatch in " ++ place ++ ": expected " ++ expected ++ ", found " ++ found.text), span⟩

/-- Checks that the type `found` agrees with `expected`. -/
def expectTy (expected found : Ty) (place : String) (span : Option Span) :
    Except LangError Unit :=
  if expected.agrees found then .ok () else throw (mismatch expected.text found place span)

/-- Checks arguments against parameters one by one, counting them from `index`. -/
def expectArgsFrom (what : String) (index : Nat) :
    List Ty → List Ty → List Expr → Except LangError Unit
  | expected :: inputs, found :: found', arg :: args => do
    expectTy expected found ("argument " ++ toString index ++ " of " ++ what) arg.span
    expectArgsFrom what (index + 1) inputs found' args
  | _, _, _ => .ok ()

/-- Checks that the arguments `args` of types `found` suit a callee `what` with parameters of types
`inputs`: first their number, then one by one. -/
def expectArgs (what : String) (inputs found : List Ty) (args : List Expr)
    (span : Option Span) : Except LangError Unit :=
  if inputs.length ≠ found.length then
    throw ⟨.arityMismatch what inputs.length found.length, span⟩
  else expectArgsFrom what 1 inputs found args

namespace Context

mutual

/-- The type of an expression, where `agree` tells which types the branches of a conditional may
have. -/
def inferWith (agree : Ty → Ty → Bool) (Γ : Context) (e : Expr) : Except LangError Ty :=
  located e.span <| match e with
  | .number _ _ => .ok .nat
  | .boolean _ _ => .ok .bool
  | .var name span =>
    match Γ.get? name with
    | some ty => .ok ty
    | none => if Text.isQuoted name then .ok .str else throw ⟨.unboundName name, span⟩
  | .not operand span => do
    let ty ← inferWith agree Γ operand
    expectTy .bool ty "'not'" span
    return .bool
  | .binary op left right span => do
    let leftTy ← inferWith agree Γ left
    let rightTy ← inferWith agree Γ right
    let expected := if op = .plus then Ty.nat else Ty.bool
    expectTy expected leftTy ("'" ++ op.name ++ "'") span
    expectTy expected rightTy ("'" ++ op.name ++ "'") span
    return expected
  | .cond condition thenBranch elseBranch _ => do
    let conditionTy ← inferWith agree Γ condition
    let thenTy ← inferWith agree Γ thenBranch
    let elseTy ← inferWith agree Γ elseBranch
    expectTy .bool conditionTy "'if' condition" condition.span
    if agree thenTy elseTy then return elseTy
    else throw (mismatch thenTy.text elseTy "'if' else branch" elseBranch.span)
  | .lambda param paramTy body _ => do
    let bodyTy ← inferWith agree (Γ.extend (.ofList [(param, paramTy)])) body
    return .arrow [paramTy] bodyTy
  | .app head args span => do
    let headTy ← inferWith agree Γ head
    let argTys ← inferAllWith agree Γ args
    match headTy with
    | .arrow inputs output => do
      expectArgs ("'" ++ head.text ++ "'") inputs argTys args span
      return output
    | other => throw (mismatch "a function" other "application head" head.span)
  | .pair first second _ => do
    let firstTy ← inferWith agree Γ first
    let secondTy ← inferWith agree Γ second
    return .pair firstTy secondTy
  | .fst operand span => do
    match ← inferWith agree Γ operand with
    | .pair first _ => return first
    | other => throw (mismatch "a pair" other "'fst'" span)
  | .snd operand span => do
    match ← inferWith agree Γ operand with
    | .pair _ second => return second
    | other => throw (mismatch "a pair" other "'snd'" span)
  | .construct name args span =>
    match Γ.registry.constructor? name with
    | none => throw ⟨.unboundName name, span⟩
    | some info => do
      let argTys ← inferAllWith agree Γ args
      expectArgs ("constructor '" ++ name ++ "'") info.fields argTys args span
      return .construct name argTys info.data
  | .cases scrutinee patterns branches span => do
    let subject ← inferWith agree Γ scrutinee
    if patterns.length ≠ branches.length then
      throw ⟨.arityMismatch "match" patterns.length branches.length, span⟩
    match ← inferArmsWith agree Γ subject none patterns branches with
    | some ty => return ty
    | none => throw ⟨.typeMismatch "match has no branches", span⟩

/-- The types of expressions, in order. -/
def inferAllWith (agree : Ty → Ty → Bool) (Γ : Context) : List Expr → Except LangError (List Ty)
  | [] => .ok []
  | e :: es => do
    let ty ← inferWith agree Γ e
    let tys ← inferAllWith agree Γ es
    return ty :: tys

/-- The type of the arms of a match on a value of type `subject`: the type `result` of the arms
before if there are any, and else that of the first arm. All arms must agree with it. -/
def inferArmsWith (agree : Ty → Ty → Bool) (Γ : Context) (subject : Ty) :
    (result : Option Ty) → List Pattern → List Expr → Except LangError (Option Ty)
  | result, p :: ps, branch :: branches => do
    match ← p.bindings? Γ.registry subject with
    | none =>
      throw ⟨.typeMismatch ("pattern '" ++ p.text ++ "' cannot match a value of type " ++
        subject.text), p.span⟩
    | some bound => do
      let ty ← inferWith agree (Γ.extend bound) branch
      match result with
      | none => inferArmsWith agree Γ subject (some ty) ps branches
      | some first => do
        expectTy first ty "match branch" branch.span
        inferArmsWith agree Γ subject (some first) ps branches
  | result, _, _ => .ok result

end

/-- The type of an expression. -/
def infer (Γ : Context) (e : Expr) : Except LangError Ty :=
  Γ.inferWith Ty.sameTag e

end Context

end Casewise
