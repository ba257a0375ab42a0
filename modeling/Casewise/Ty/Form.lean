import Casewise.Declared
import Casewise.Malformed
import Casewise.Sexp

/-!
# Reading types

A type is a built-in name, the name of a declared data type, an arrow `(-> input ... output)` with
at least one input, or a pair `(pair first second)`.
-/

namespace Casewise.Ty

mutual

/-- The type that a form writes, after the declarations `d`. -/
def ofSexp (d : Declared) : Sexp → Except Failure Ty
  | .atom name span =>
    match builtin? name with
    | some ty => .ok ty
    | none =>
      if name ∈ d.dataTypes then .ok (.data name)
      else throw ((Malformed.unknownType name).failure span)
  | .list (.atom "->" _ :: args) span => do
    if args.length < 2 then
      throw ((Malformed.arrowTooShort args.length).failure span)
    let tys ← ofSexps d args
    return .arrow tys.dropLast (tys.getLast?.getD default)
  | .list [.atom "pair" _, first, second] _ => do
    let first ← ofSexp d first
    let second ← ofSexp d second
    return .pair first second
  | .list (.atom "pair" _ :: args) span =>
    throw ((Malformed.argumentCount "pair" 2 args.length).failure span)
  | .list items span =>
    throw ((Malformed.unknownType (Sexp.list items span).text).failure span)

/-- The types that forms write, in order. -/
def ofSexps (d : Declared) : List Sexp → Except Failure (List Ty)
  | [] => .ok []
  | e :: es => do
    let ty ← ofSexp d e
    let tys ← ofSexps d es
    return ty :: tys

end

end Casewise.Ty
