import Casewise.Program
import Casewise.Typing.Infer

/-!
# Checking programs

A program is checked statement by statement. A definition binds the type of its value, a data
declaration registers the type and binds its constructors, and an assignment must keep the type of
its target. Checking carries the context along and keeps it when a statement fails.

## Main definitions

* `Check`: checking with a context at hand.
* `Check.stmt`: the effect of one statement.
* `Check.program`: the statements of a program, up to the first that fails.
-/

namespace Casewise

/-- Checking with a context at hand, which outlives a failure. -/
abbrev Check := ExceptT LangError (StateM Context)

namespace Check

/-- The result of `f`, which looks at the context. -/
def withContext {α : Type} (f : Context → Except LangError α) : Check α := do
  ExceptT.mk (pure (f (← getThe Context)))

/-- Replaces the context by what `f` makes of it. -/
def update (f : Context → Except LangError Context) : Check Unit := do
  set (← withContext f)

mutual

/-- Checks that every data type that a type mentions is declared, or is `own`. -/
def declared (own : String) (span : Option Span) (registry : Registry) :
    Ty → Except LangError Unit
  | .data name =>
    if name = own ∨ (registry.data? name).isSome then .ok ()
    else throw ⟨.unboundName name, span⟩
  | .arrow inputs output => do
    allDeclared own span registry inputs
    declared own span registry output
  | .pair first second => do
    declared own span registry first
    declared own span registry second
  | .prim _ | .construct .. => .ok ()

/-- Checks that every data type that one of the types mentions is declared, or is `own`. -/
def allDeclared (own : String) (span : Option Span) (registry : Registry) :
    List Ty → Except LangError Unit
  | [] => .ok ()
  | ty :: tys => do
    declared own span registry ty
    allDeclared own span registry tys

end

/-- The type of a constructor of the data type `owner`, as a name: the data type itself if it has no
fields, and else a function of its fields. -/
def constructorTy (owner : String) (c : ConstructorDecl) : Ty :=
  if c.fields.isEmpty then .data owner else .arrow c.fields (.data owner)

/-- Checks that the constructor `c` of the data type `own` can be declared. -/
def constructor (own : String) (Γ : Context) (c : ConstructorDecl) : Except LangError Unit := do
  if Γ.hasLocal c.name then throw ⟨.redefinition c.name, c.span⟩
  allDeclared own c.span Γ.registry c.fields

/-- Declares a data type and binds its constructors. -/
def data (name : String) (constructors : List ConstructorDecl) (span : Option Span) :
    Check Unit := do
  withContext fun Γ =>
    if (Γ.registry.data? name).isSome then throw ⟨.redefinition name, span⟩
    else constructors.forM (constructor name Γ)
  Chain.declare name (constructors.map fun c => (c.name, c.fields))
  constructors.forM fun c => update (·.set c.name (constructorTy name c))

/-- Checks that an assignment keeps the type of its target. -/
def assign (agree : Ty → Ty → Bool) (target value : Expr) (span : Option Span) (Γ : Context) :
    Except LangError Unit :=
  match target with
  | .var name _ => do
    let valueTy ← Γ.inferWith agree value
    let targetTy ← Γ.get name
    expectTy targetTy valueTy ("assignment to '" ++ name ++ "'") span
  | other =>
    throw
      ⟨.invalidAssignTarget ("cannot assign to non-variable '" ++ other.text ++ "'"), other.span⟩

/-- Checks one statement, where `agree` tells which types the branches of a conditional may have. An
error is placed at the statement. -/
def stmtWith (agree : Ty → Ty → Bool) (s : Stmt) : Check Unit :=
  ExceptT.adapt (·.placedAt s.span) <| match s with
  | .define name value _ => do
    let ty ← withContext (·.inferWith agree value)
    update (·.set name ty)
  | .assign target value span => withContext (assign agree target value span)
  | .print value _ => do
    let _ ← withContext (·.inferWith agree value)
  | .data name constructors span => data name constructors span

/-- Checks one statement. -/
def stmt (s : Stmt) : Check Unit :=
  stmtWith Ty.sameTag s

/-- Checks the statements of a program in order, up to the first that fails. -/
def program (p : Program) : Check Unit :=
  p.forM stmt

end Check

end Casewise
