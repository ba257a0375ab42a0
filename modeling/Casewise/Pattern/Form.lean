import Casewise.Declared
import Casewise.Malformed
import Casewise.Sexp
import Casewise.Text.Decimal
import Casewise.Text.Literal

/-!
# Reading patterns

An atom is a pattern by its text alone, except that the name of a constructor without fields stands
for that constructor (`Pattern.ofAtom`). A list names its constructor, or `pair`, at its head
(`Pattern.structured`). A number with too many digits is not read.
-/

namespace Casewise.Pattern

/-- The pattern that the atom `text` writes, where `nullary` tells the constructors without
fields. -/
def ofAtom (nullary : String → Bool) (text : String) (span : Option Span) : Pattern :=
  if text = "_" then .wildcard span
  else
    match Text.decimal? text with
    | some value => .number value span
    | none =>
      if text = "true" then .boolean true span
      else if text = "false" then .boolean false span
      else if Text.isStringLiteral text then .string (Text.unquoted text) span
      else if nullary text then .construct text [] span
      else .binding text span

/-- The pattern with the head `head` over the patterns `subs`. A pair takes two of them. -/
def structured (head : String) (subs : List Pattern) (span : Option Span) :
    Except LangError Pattern :=
  if head = "pair" then
    match subs with
    | [first, second] => .ok (.pair first second span)
    | _ => throw ⟨.arityMismatch "pair pattern" 2 subs.length, span⟩
  else
    .ok (.construct head subs span)

mutual

/-- The pattern that a form writes, after the declarations `d`. -/
def ofSexp (d : Declared) : Sexp → Except Failure Pattern
  | .atom text span => d.converted text (ofAtom d.isNullary text span)
  | .list (.atom head _ :: args) span => do
    let subs ← ofSexps d args
    if head = "pair" ∧ args.length ≠ 2 then
      throw ((Malformed.argumentCount "pair" 2 args.length).failure span)
    (structured head subs span).mapError .lang
  | .list _ span => throw (Malformed.patternHeadExpected.failure span)

/-- The patterns that forms write, in order. -/
def ofSexps (d : Declared) : List Sexp → Except Failure (List Pattern)
  | [] => .ok []
  | e :: es => do
    let p ← ofSexp d e
    let ps ← ofSexps d es
    return p :: ps

end

end Casewise.Pattern
