import Casewise.Running.Evaluate

/-!
# Executing programs

Statements are executed in order in one scope. A definition adds a name, an assignment changes the
value of a name in the scope that binds it, a data declaration adds the data type and binds its
constructors as functions, and printing adds a line to the output.

## Main definitions

* `Execute.stmt`: the effect of one statement.
* `Execute.program`: the statements of a program, up to the first that stops.
-/

namespace Casewise.Execute

/-- Checks that the data type `name` and its constructors are new in the scope `s`. -/
def undeclared (s : ScopeId) (name : String) (constructors : List ConstructorDecl)
    (span : Option Span) (scopes : Forest Value) : Except LangError Unit :=
  if ((scopes.registry s).data? name).isSome then throw ⟨.redefinition name, span⟩
  else
    constructors.forM fun c =>
      if scopes.hasLocal s c.name then throw ⟨.redefinition c.name, c.span⟩ else .ok ()

/-- Declares a data type and binds its constructors. -/
def data (s : ScopeId) (name : String) (constructors : List ConstructorDecl)
    (span : Option Span) : Run Unit := do
  let outcome ← Run.withScopes (undeclared s name constructors span)
  Run.ofExcept outcome
  Run.declare s name (constructors.map fun c => (c.name, c.fields))
  constructors.forM fun c =>
    Run.update (·.set s c.name (.constructor c.name c.fields.length))
  Run.log (.data name (constructors.map ConstructorDecl.name))

/-- Executes one statement in the scope `s`, where evaluations nest less than `depth` deep. An error
is placed at the statement unless it has a place already. -/
def stmt (depth : Nat) (s : ScopeId) (st : Stmt) : Run Unit :=
  Run.located st.span <| match st with
  | .define name value _ => do
    Run.log (.define name)
    let v ← evaluate depth s value
    Run.update (·.set s name v)
  | .assign (.var name _) value _ => do
    let v ← evaluate depth s value
    Run.log (.assign name)
    Run.update (·.update s name v)
  | .assign target _ _ =>
    Run.fail (.invalidAssignTarget ("cannot assign to non-variable '" ++ target.text ++ "'"))
      target.span
  | .print value _ => do
    let v ← evaluate depth s value
    Run.log (.print v.display)
    modify (·.print v.display)
  | .data name constructors span => data s name constructors span

/-- Executes the statements of a program in order, up to the first that stops. -/
def program (depth : Nat) (s : ScopeId) (p : Program) : Run Unit :=
  p.forM (stmt depth s)

end Casewise.Execute
