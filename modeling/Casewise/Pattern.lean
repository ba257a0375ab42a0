import Casewise.Span
import Casewise.Text.Spaced

/-!
# Patterns

A pattern describes values: any value, any value under a name, one number, truth value or string, a
pair, or what a constructor builds. Patterns know the span they were read from; the span takes no
part in what a pattern means, nor in `Pattern.same`, which compares patterns.
-/

namespace Casewise

/-- A description of values. -/
inductive Pattern where
  | wildcard (span : Option Span)
  /-- Any value, bound to `name`. -/
  | binding (name : String) (span : Option Span)
  /-- The number `value`. -/
  | number (value : Int) (span : Option Span)
  /-- The truth value `value`. -/
  | boolean (value : Bool) (span : Option Span)
  /-- The string `value`, here without quotes. -/
  | string (value : String) (span : Option Span)
  /-- What the constructor `name` builds from fields that fit `args`. -/
  | construct (name : String) (args : List Pattern) (span : Option Span)
  /-- A pair whose components fit `first` and `second`. -/
  | pair (first second : Pattern) (span : Option Span)
  deriving Repr, Inhabited

namespace Pattern

/-- The span the pattern was read from. -/
def span : Pattern → Option Span
  | wildcard span => span
  | binding _ span => span
  | number _ span => span
  | boolean _ span => span
  | string _ span => span
  | construct _ _ span => span
  | pair _ _ span => span

mutual

/-- The pattern as a program writes it. A constructor without fields is written as an atom. -/
def text : Pattern → String
  | wildcard _ => "_"
  | binding name _ => name
  | number value _ => toString value
  | boolean value _ => if value then "true" else "false"
  | string value _ => "\"" ++ value ++ "\""
  | construct name [] _ => name
  | construct name (arg :: args) _ => Text.parenthesized (name :: texts (arg :: args))
  | pair first second _ => Text.parenthesized ["pair", text first, text second]

/-- The patterns written out one by one. -/
def texts : List Pattern → List String
  | [] => []
  | p :: ps => text p :: texts ps

end

mutual

/-- Whether two patterns are equal apart from their spans. -/
def same : Pattern → Pattern → Bool
  | wildcard _, wildcard _ => true
  | binding name _, binding name' _ => name = name'
  | number value _, number value' _ => value = value'
  | boolean value _, boolean value' _ => value = value'
  | string value _, string value' _ => value = value'
  | construct name args _, construct name' args' _ => name = name' && sameAll args args'
  | pair first second _, pair first' second' _ => same first first' && same second second'
  | _, _ => false

/-- Whether two lists of patterns are equal apart from spans. -/
def sameAll : List Pattern → List Pattern → Bool
  | [], [] => true
  | p :: ps, q :: qs => same p q && sameAll ps qs
  | _, _ => false

end

end Pattern

end Casewise
