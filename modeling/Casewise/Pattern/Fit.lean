import Casewise.Pattern
import Casewise.Scope.Registry

/-!
# Fitting patterns

One rule decides whether a pattern fits, both for values and for the types of values: `Subject` says
what a thing must offer to be matched, and `Pattern.fit` walks over the pattern. It works from left
to right, stops at the first part that does not fit, and binds names as it meets them; what it has
bound by then stays in the table also when the pattern does not fit or is an error.

## Main definitions

* `Subject`: things that patterns are matched against.
* `Fitting`: a result together with the names bound so far.
* `Pattern.fit`: whether a pattern fits.
-/

namespace Casewise

/-- Things that patterns are matched against. -/
class Subject (σ : Type) where
  /-- Whether the literal number fits. -/
  fitsNumber : σ → Int → Bool
  /-- Whether the literal truth value fits. -/
  fitsBoolean : σ → Bool → Bool
  /-- Whether the literal string fits. -/
  fitsString : σ → String → Bool
  /-- The components, if it is a pair. -/
  components? : σ → Option (σ × σ)
  /-- The fields, if the constructor built it. -/
  fields? : σ → ConstructorInfo → Option (List σ)

/-- A result together with the names bound so far, which outlive a failure. -/
abbrev Fitting (σ : Type) := ExceptT LangError (StateM (Table σ))

namespace Fitting

/-- Binds a name that is not bound yet. -/
def bind {σ : Type} (name : String) (subject : σ) : Fitting σ Unit := do
  let bound ← getThe (Table σ)
  if bound.contains name then throw { cause := .redefinition name }
  set (bound.insert name subject)

end Fitting

namespace Pattern

variable {σ : Type} [Subject σ]

mutual

/-- Whether the pattern fits the subject, where `registry` knows the constructors. A constructor
must be declared, and the pattern must have a part for each of its fields, whatever the subject
is. -/
def fit (registry : Registry) : Pattern → σ → Fitting σ Bool
  | wildcard _, _ => pure true
  | binding name _, subject => do
    Fitting.bind name subject
    pure true
  | number value _, subject => pure (Subject.fitsNumber subject value)
  | boolean value _, subject => pure (Subject.fitsBoolean subject value)
  | string value _, subject => pure (Subject.fitsString subject value)
  | pair first second _, subject =>
    match Subject.components? subject with
    | none => pure false
    | some (a, b) => do
      if ← fit registry first a then fit registry second b else pure false
  | construct name args span, subject =>
    match registry.constructor? name with
    | none => throw { cause := .unboundName name, span }
    | some info =>
      if args.length ≠ info.arity then
        throw ⟨.arityMismatch ("pattern '" ++ name ++ "'") info.arity args.length, span⟩
      else
        match Subject.fields? subject info with
        | none => pure false
        | some fields =>
          if fields.length ≠ args.length then
            throw ⟨.arityMismatch ("pattern '" ++ name ++ "'") fields.length args.length, span⟩
          else fitAll registry args fields

/-- Whether the patterns fit the subjects, one by one. -/
def fitAll (registry : Registry) : List Pattern → List σ → Fitting σ Bool
  | p :: ps, s :: ss => do
    if ← fit registry p s then fitAll registry ps ss else pure false
  | _, _ => pure true

end

/-- Matches the subject with the pattern on a fresh table: the names bound if it fits. An error is
placed at the pattern. -/
def bindings? (registry : Registry) (p : Pattern) (subject : σ) :
    Except LangError (Option (Table σ)) :=
  let (outcome, bound) := ((p.fit registry subject).run).run ∅
  (located p.span outcome).map fun fits => if fits then some bound else none

end Pattern

end Casewise
