import Casewise.Expr.Form
import Casewise.Sexp.Nest

/-!
# Reading programs

Statements are read in order, and each data declaration changes how the later forms read.
`Reading` carries the declarations along and keeps them when reading fails: a data type is
remembered before its constructors are read, so that their fields may mention it, and the
constructors only when all of them have been read.

## Main definitions

* `Stmt.ofSexp`: the statement that a form writes.
* `Program.read`: a whole text, after earlier declarations.
* `parse`: a whole text by itself.
-/

namespace Casewise

/-- Reading forms with the declarations at hand. They outlive a failure. -/
abbrev Reading := ExceptT Failure (StateM Declared)

namespace Reading

/-- Reads one form by `f`, which looks at the declarations. -/
def withDeclared {α : Type} (f : Declared → Except Failure α) : Reading α := do
  ExceptT.mk (pure (f (← getThe Declared)))

end Reading

/-- The constructor that a form of a data declaration writes, after the declarations `d`. -/
def ConstructorDecl.ofSexp (d : Declared) : Sexp → Except Failure ConstructorDecl
  | .atom name span => .ok ⟨name, [], span⟩
  | .list (.atom name _ :: fields) span => return ⟨name, ← Ty.ofSexps d fields, span⟩
  | .list _ span => throw (Malformed.constructorNameExpected.failure span)

namespace Stmt

/-- The complaint that the statement form `form` takes `expected` arguments and was given
`args`. -/
def wrongCount (form : String) (expected : Nat) (args : List Sexp) (span : Span) : Reading Stmt :=
  throw ((Malformed.argumentCount form expected args.length).failure span)

/-- The statement that a form writes. -/
def ofSexp : Sexp → Reading Stmt
  | .atom text span => throw ((Malformed.atomStatement text).failure span)
  | .list (.atom "define" _ :: args) span =>
    match args with
    | [.atom name _, value] =>
      return .define name (← Reading.withDeclared (Expr.ofSexp · value)) span
    | [target, _] => throw (Malformed.definedNameExpected.failure target.span)
    | args => wrongCount "define" 2 args span
  | .list (.atom "assign" _ :: args) span =>
    match args with
    | [target, value] => do
      let target ← Reading.withDeclared (Expr.ofSexp · target)
      let value ← Reading.withDeclared (Expr.ofSexp · value)
      return .assign target value span
    | args => wrongCount "assign" 2 args span
  | .list (.atom "print" _ :: args) span =>
    match args with
    | [value] => return .print (← Reading.withDeclared (Expr.ofSexp · value)) span
    | args => wrongCount "print" 1 args span
  | .list (.atom "data" _ :: args) span =>
    match args with
    | .atom name _ :: forms => do
      modify (·.addType name)
      let constructors ← Reading.withDeclared fun d => forms.mapM (ConstructorDecl.ofSexp d)
      modify (·.addConstructors constructors)
      return .data name constructors span
    | _ => throw (Malformed.typeNameExpected.failure span)
  | .list (.atom head headSpan :: args) span =>
    throw ((Malformed.unknownStatement (Sexp.list (.atom head headSpan :: args) span).text).failure
      span)
  | .list _ span => throw (Malformed.headlessStatement.failure span)

end Stmt

/-- The program of the text `source` of the file `file`, after earlier declarations. The whole text
is read as nested forms before the first statement is. -/
def Program.read (file source : String) : Reading Program := do
  let forms ← Reading.withDeclared fun _ => (Casewise.read file source).mapError .compile
  forms.mapM Stmt.ofSexp

/-- The expression of the text `source` of the file `file`, which holds nothing else, after earlier
declarations. -/
def Expr.read (file source : String) : Reading Expr := do
  let form ← Reading.withDeclared fun _ => (readOne file source).mapError .compile
  Reading.withDeclared (Expr.ofSexp · form)

/-- The program of the text `source` of the file `file`. -/
def parse (file source : String) : Except Failure Program :=
  ((Program.read file source).run.run {}).1

end Casewise
