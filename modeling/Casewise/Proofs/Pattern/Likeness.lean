import Casewise.Proofs.Alongside
import Casewise.Proofs.Pattern.Fit
import Casewise.Proofs.Spans.Syntax
import Casewise.Proofs.Table

/-!
# Things that patterns cannot tell apart

Two things may differ in ways that no pattern asks about. Then a pattern fits both or none of them,
and it binds the same names to parts that are alike again. The pattern itself may stand in different
places; this shows only in the place of an error.

## Main definitions

* `Subject.Likeness`: a relation of things that patterns cannot tell apart.

## Main statements

* `Pattern.fit_mirrors`: matching like things goes in step.
* `Pattern.bindings?_alongside`: what a pattern finds in like things is alike.
-/

namespace Casewise

theorem Alongside.located {α β : Type} {f : Span → Span} {rel : α → β → Prop}
    {x : Except LangError α} {y : Except LangError β} (h : Alongside (LangError.Moved f) rel x y)
    (span : Option Span) :
    Alongside (LangError.Moved f) rel (located span x) (located (span.map f) y) := by
  refine h.mapError fun e e' he => ?_
  rw [LangError.Moved, LangError.mapSpan_placedAt, he]

/-- Placing errors with `placedAt` at corresponding places keeps `Mirrors`. -/
theorem Mirrors.placedAt {σ τ α β : Type} {f : Span → Span} {S : σ → τ → Prop}
    {rel : α → β → Prop} {x : ExceptT LangError (StateM σ) α} {y : ExceptT LangError (StateM τ) β}
    (h : Mirrors (LangError.Moved f) S rel x y) (span : Option Span) :
    Mirrors (LangError.Moved f) S rel (ExceptT.adapt (·.placedAt span) x)
      (ExceptT.adapt (·.placedAt (span.map f)) y) := by
  refine h.adapt fun e e' he => ?_
  rw [LangError.Moved, LangError.mapSpan_placedAt, he]

variable {σ τ : Type} {rel : σ → τ → Prop}

/-- The relation is one of things that patterns cannot tell apart. -/
structure Subject.Likeness [Subject σ] [Subject τ] (rel : σ → τ → Prop) : Prop where
  /-- The same numbers fit. -/
  fitsNumber_eq : ∀ {a b}, rel a b → ∀ n, fitsNumber a n = fitsNumber b n
  /-- The same truth values fit. -/
  fitsBoolean_eq : ∀ {a b}, rel a b → ∀ n, fitsBoolean a n = fitsBoolean b n
  /-- The same strings fit. -/
  fitsString_eq : ∀ {a b}, rel a b → ∀ n, fitsString a n = fitsString b n
  /-- Both are pairs of like components, or none is a pair. -/
  components?_rel : ∀ {a b}, rel a b →
    Option.Rel (fun x y => rel x.1 y.1 ∧ rel x.2 y.2) (components? a) (components? b)
  /-- The constructor has built both, from like fields, or none of them. -/
  fields?_rel : ∀ {a b}, rel a b → ∀ info,
    Option.Rel (List.Forall₂ rel) (fields? a info) (fields? b info)

namespace Pattern

variable {f : Span → Span} {R R' : Registry}

theorem bindName_mirrors (name : String) {a : σ} {b : τ} (h : rel a b) :
    Mirrors (LangError.Moved f) (Table.Alike rel) Eq (do Fitting.bind name a; pure true)
      (do Fitting.bind name b; pure true) := by
  intro t u htu
  rw [outcome_bindName, outcome_bindName, Table.contains, Table.contains]
  have hname := htu.get?_rel name
  cases hget : t.get? name with
  | none =>
    rw [hget] at hname
    rw [htu.get?_eq_none.mp hget]
    exact ⟨.ok rfl, htu.insert hget h⟩
  | some c =>
    obtain ⟨d, hd, -⟩ := htu.get?_eq_some hget
    rw [hd]
    exact ⟨.error rfl, htu⟩

theorem andThen_mirrors {x x' : Fitting σ Bool} {y y' : Fitting τ Bool}
    (h : Mirrors (LangError.Moved f) (Table.Alike rel) Eq x y)
    (h' : Mirrors (LangError.Moved f) (Table.Alike rel) Eq x' y') :
    Mirrors (LangError.Moved f) (Table.Alike rel) Eq (do if ← x then x' else pure false)
      (do if ← y then y' else pure false) := by
  refine h.bind fun fits fits' hfits => ?_
  subst hfits
  cases fits with
  | true => exact h'
  | false => exact .pure rfl

variable [Subject σ] [Subject τ]

mutual

/-- Matching like things, in the sense of `Subject.Likeness`, goes in step. -/
theorem fit_mirrors (hrel : Subject.Likeness rel)
    (hR : ∀ name, R'.constructor? name = R.constructor? name) :
    ∀ (p : Pattern) {a : σ} {b : τ}, rel a b →
      Mirrors (LangError.Moved f) (Table.Alike rel) Eq (p.fit R a) ((p.mapSpans f).fit R' b)
  | wildcard _, _, _, _ => .pure rfl
  | binding name _, _, _, h => bindName_mirrors name h
  | number value _, _, _, h => .pure (hrel.fitsNumber_eq h value)
  | boolean value _, _, _, h => .pure (hrel.fitsBoolean_eq h value)
  | string value _, _, _, h => .pure (hrel.fitsString_eq h value)
  | pair first second _, a, b, h => by
    have hparts := hrel.components?_rel h
    rw [mapSpans, fit, fit]
    generalize Subject.components? a = parts, Subject.components? b = parts' at hparts ⊢
    cases hparts with
    | none => exact .pure rfl
    | some hab =>
      exact andThen_mirrors (fit_mirrors hrel hR first hab.1) (fit_mirrors hrel hR second hab.2)
  | construct name args span, a, b, h => by
    rw [mapSpans, fit, fit, hR]
    cases R.constructor? name with
    | none => exact .throw rfl
    | some info =>
      simp only [length_mapSpansAll]
      split
      · exact .throw rfl
      · have hfields := hrel.fields?_rel h info
        generalize Subject.fields? a info = fields, Subject.fields? b info = fields' at hfields ⊢
        cases hfields with
        | none => exact .pure rfl
        | some hall =>
          simp only [hall.length_eq]
          split
          · exact .throw rfl
          · exact fitAll_mirrors hrel hR args hall

theorem fitAll_mirrors (hrel : Subject.Likeness rel)
    (hR : ∀ name, R'.constructor? name = R.constructor? name) :
    ∀ (ps : List Pattern) {as : List σ} {bs : List τ}, List.Forall₂ rel as bs →
      Mirrors (LangError.Moved f) (Table.Alike rel) Eq (fitAll R ps as)
        (fitAll R' (mapSpansAll f ps) bs)
  | [], _, _, _ => .pure rfl
  | _ :: _, _, _, .nil => .pure rfl
  | p :: ps, _, _, .cons h hs =>
    andThen_mirrors (fit_mirrors hrel hR p h) (fitAll_mirrors hrel hR ps hs)

end

/-- What `bindings?` finds in like things is alike. -/
theorem bindings?_alongside (hrel : Subject.Likeness rel)
    (hR : ∀ name, R'.constructor? name = R.constructor? name) (p : Pattern) {a : σ} {b : τ}
    (h : rel a b) :
    Alongside (LangError.Moved f) (Option.Rel (Table.Alike rel)) (p.bindings? R a)
      ((p.mapSpans f).bindings? R' b) := by
  rw [bindings?_eq, bindings?_eq, span_mapSpans]
  obtain ⟨hresult, htables⟩ := fit_mirrors (f := f) hrel hR p h ∅ ∅ .empty
  refine (hresult.located p.span).map fun fits fits' hfits => ?_
  subst hfits
  cases fits with
  | true => exact .some htables
  | false => exact .none

end Pattern

end Casewise
