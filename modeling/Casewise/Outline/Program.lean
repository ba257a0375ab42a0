import Casewise.Outline
import Casewise.Program
import Casewise.Text.Quoted

/-!
# Outlines of programs

The outline of a program shows every node with its kind and its fields, and leaves out spans. Names
and texts are quoted, so that no character of them is mistaken for the outline's own.
-/

namespace Casewise

/-- A field with a name or text. -/
def Outline.text (field content : String) : Outline :=
  .value field (Text.quoted content)

/-- A field with a number. -/
def Outline.number (field : String) (n : Int) : Outline :=
  .value field (toString n)

/-- A field with a truth value. -/
def Outline.truth (field : String) (b : Bool) : Outline :=
  .value field (if b then "True" else "False")

mutual

/-- The outline of a type. -/
def Ty.outline : Ty → Outline
  | .prim name => .node "PrimitiveType" [.text "name" name]
  | .arrow inputs output =>
    .node "ArrowType"
      [.group "inputs" (Ty.outlines inputs), .group "output" [Ty.outline output]]
  | .pair first second =>
    .node "PairType" [.group "first" [Ty.outline first], .group "second" [Ty.outline second]]
  | .data name => .node "DataType" [.text "name" name]
  | .construct name args owner =>
    .node "ConstructType"
      [.text "name" name, .group "arg_types" (Ty.outlines args),
        .group "data" [.node "DataType" [.text "name" owner]]]

/-- The outlines of types. -/
def Ty.outlines : List Ty → List Outline
  | [] => []
  | ty :: tys => Ty.outline ty :: Ty.outlines tys

end

mutual

/-- The outline of a pattern. -/
def Pattern.outline : Pattern → Outline
  | .wildcard _ => .node "WildcardPattern" []
  | .binding name _ => .node "BindingPattern" [.text "name" name]
  | .number value _ => .node "IntLiteralPattern" [.number "value" value]
  | .boolean value _ => .node "BoolLiteralPattern" [.truth "value" value]
  | .string value _ => .node "StringLiteralPattern" [.text "value" value]
  | .construct name args _ =>
    .node "ConstructorPattern" [.text "name" name, .group "args" (Pattern.outlines args)]
  | .pair first second _ =>
    .node "PairPattern"
      [.group "first" [Pattern.outline first], .group "second" [Pattern.outline second]]

/-- The outlines of patterns. -/
def Pattern.outlines : List Pattern → List Outline
  | [] => []
  | p :: ps => Pattern.outline p :: Pattern.outlines ps

end

mutual

/-- The outline of an expression. -/
def Expr.outline : Expr → Outline
  | .var name _ => .node "Var" [.text "name" name]
  | .number value _ => .node "NumLit" [.number "value" value]
  | .boolean value _ => .node "BoolLit" [.truth "value" value]
  | .not operand _ => .node "Not" [.group "operand" [Expr.outline operand]]
  | .binary op left right _ =>
    .node "BinaryExpr"
      [.text "op" op.name, .group "left" [Expr.outline left], .group "right" [Expr.outline right]]
  | .cond condition thenBranch elseBranch _ =>
    .node "IfExpr"
      [.group "condition" [Expr.outline condition], .group "then_branch" [Expr.outline thenBranch],
        .group "else_branch" [Expr.outline elseBranch]]
  | .lambda param paramTy body _ =>
    .node "Lambda"
      [.text "param" param, .group "param_type" [paramTy.outline],
        .group "body" [Expr.outline body]]
  | .app head args _ =>
    .node "App" [.group "head" [Expr.outline head], .group "args" (Expr.outlines args)]
  | .pair first second _ =>
    .node "PairExpr"
      [.group "first" [Expr.outline first], .group "second" [Expr.outline second]]
  | .fst operand _ => .node "Fst" [.group "operand" [Expr.outline operand]]
  | .snd operand _ => .node "Snd" [.group "operand" [Expr.outline operand]]
  | .construct name args _ =>
    .node "Construct" [.text "name" name, .group "args" (Expr.outlines args)]
  | .cases scrutinee patterns branches _ =>
    .node "Match"
      [.group "scrutinee" [Expr.outline scrutinee],
        .group "patterns" (Pattern.outlines patterns),
        .group "branches" (Expr.outlines branches)]

/-- The outlines of expressions. -/
def Expr.outlines : List Expr → List Outline
  | [] => []
  | e :: es => Expr.outline e :: Expr.outlines es

end

/-- The outline of a constructor declaration. -/
def ConstructorDecl.outline (c : ConstructorDecl) : Outline :=
  .node "ConstructorDecl" [.text "name" c.name, .group "arg_types" (Ty.outlines c.fields)]

/-- The outline of a statement. -/
def Stmt.outline : Stmt → Outline
  | .define name value _ => .node "Define" [.text "name" name, .group "value" [value.outline]]
  | .assign target value _ =>
    .node "Assign" [.group "target" [target.outline], .group "value" [value.outline]]
  | .print value _ => .node "Print" [.group "value" [value.outline]]
  | .data name constructors _ =>
    .node "DataDecl"
      [.text "name" name, .group "constructors" (constructors.map ConstructorDecl.outline)]

/-- The lines of the outline of a program. -/
def Program.outlineLines (p : Program) : List String :=
  Outline.linesOf 0 (p.map Stmt.outline)

end Casewise
