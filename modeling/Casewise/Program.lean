import Casewise.Expr

/-!
# Programs

A program is a list of statements: a definition, an assignment to a name that is defined already, a
printed expression, or the declaration of a data type with its constructors.

`Program.text` writes a program with one statement on each line.
-/

namespace Casewise

/-- A constructor of a data declaration with the types of its fields. -/
structure ConstructorDecl where
  /-- The name of the constructor. -/
  name : String
  /-- The types of its fields. -/
  fields : List Ty
  /-- The span the declaration was read from. -/
  span : Option Span
  deriving Repr, Inhabited

namespace ConstructorDecl

/-- The constructor as a data declaration writes it, always in parentheses. -/
def text (c : ConstructorDecl) : String :=
  Text.parenthesized (c.name :: c.fields.map Ty.text)

/-- Whether two constructor declarations are equal apart from their spans. -/
def same (c d : ConstructorDecl) : Bool :=
  c.name = d.name && c.fields = d.fields

end ConstructorDecl

/-- A statement. -/
inductive Stmt where
  /-- Binds `name` to the value of an expression. -/
  | define (name : String) (value : Expr) (span : Option Span)
  /-- Gives a bound name a new value. -/
  | assign (target value : Expr) (span : Option Span)
  /-- Prints the value of an expression. -/
  | print (value : Expr) (span : Option Span)
  /-- Declares a data type. -/
  | data (name : String) (constructors : List ConstructorDecl) (span : Option Span)
  deriving Repr, Inhabited

namespace Stmt

/-- The span the statement was read from. -/
def span : Stmt → Option Span
  | define _ _ span => span
  | assign _ _ span => span
  | print _ span => span
  | data _ _ span => span

/-- The statement as a program writes it. -/
def text : Stmt → String
  | define name value _ => Text.parenthesized ["define", name, value.text]
  | assign target value _ => Text.parenthesized ["assign", target.text, value.text]
  | print value _ => Text.parenthesized ["print", value.text]
  | data name constructors _ =>
    Text.parenthesized
      ["data", name, Text.joined " " (constructors.map ConstructorDecl.text)]

/-- Whether two statements are equal apart from their spans. -/
def same : Stmt → Stmt → Bool
  | define name value _, define name' value' _ => name = name' && value.same value'
  | assign target value _, assign target' value' _ => target.same target' && value.same value'
  | print value _, print value' _ => value.same value'
  | data name constructors _, data name' constructors' _ =>
    name = name' && constructors.length = constructors'.length &&
      (constructors.zip constructors').all fun (c, d) => c.same d
  | _, _ => false

end Stmt

/-- A program. -/
abbrev Program := List Stmt

namespace Program

/-- The program with one statement on each line. A program without statements is one empty line. -/
def text (p : Program) : String :=
  Text.joined "\n" (p.map Stmt.text) ++ "\n"

/-- Whether two programs are equal apart from spans. -/
def same (p q : Program) : Bool :=
  p.length = q.length && (p.zip q).all fun (s, t) => s.same t

end Program

end Casewise
