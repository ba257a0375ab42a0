import Casewise.Program
import Casewise.Running.Machine
import Casewise.Sexp

/-!
# Moving programs to other places

The nodes of a program know the spans they were read from. Here these spans are replaced, by one
function inside the bodies of functions and by another one outside of them: a body is run where the
function is called, which may be in a later text. Nothing but the spans changes, so what is moved
reads as before.

## Main definitions

* `Pattern.mapSpans`, `Expr.mapSpans`, `Stmt.mapSpans`: the same node with other spans.
* `Expr.outerSpans`, `Expr.bodySpans`: the spans outside and inside of the bodies of functions.
* `LangError.mapSpan`, `Stop.mapSpan`: the same error at another place.

## Main statements

* `Expr.text_mapSpans`: what is moved reads as before.
* `Expr.mapSpans_eq_self`: replacing spans by themselves changes nothing.
-/

namespace Casewise

private theorem map_eq_self {α : Type} {f : α → α} {o : Option α} (h : ∀ a ∈ o.toList, f a = a) :
    o.map f = o := by
  cases o with
  | none => rfl
  | some a => rw [Option.map_some, h a (List.mem_singleton_self a)]

private theorem toList_map {α : Type} (f : α → α) (o : Option α) :
    (o.map f).toList = o.toList.map f := by
  cases o <;> rfl

/-! ### Errors -/

/-- The error with its span replaced. -/
def LangError.mapSpan (f : Span → Span) (e : LangError) : LangError :=
  { e with span := e.span.map f }

/-- The stop with the span of its error replaced. -/
def Stop.mapSpan (f : Span → Span) : Stop → Stop
  | error e => error (e.mapSpan f)
  | unknownOperator name => unknownOperator name
  | tooDeep => tooDeep

/-- The span of the error of a stop. -/
def Stop.span? : Stop → Option Span
  | error e => e.span
  | unknownOperator _ | tooDeep => none

/-- The error `e'` is `e` at the place where `f` moves it. -/
def LangError.Moved (f : Span → Span) (e e' : LangError) : Prop :=
  e' = e.mapSpan f

theorem LangError.mapSpan_placedAt (f : Span → Span) (e : LangError) (span : Option Span) :
    (e.placedAt span).mapSpan f = (e.mapSpan f).placedAt (span.map f) := by
  obtain ⟨cause, _ | s⟩ := e <;> rfl

theorem Stop.mapSpan_eq_self {f : Span → Span} {stop : Stop} (h : stop.span? = none) :
    stop.mapSpan f = stop := by
  cases stop with
  | error e =>
    obtain ⟨cause, _ | s⟩ := e
    · rfl
    · cases h
  | _ => rfl

theorem Stop.span?_eq_some {stop : Stop} {s : Span} :
    stop.span? = some s ↔ ∃ cause, stop = .error ⟨cause, some s⟩ := by
  constructor
  · intro h
    cases stop with
    | error e =>
      change e.span = some s at h
      exact ⟨e.cause, by rw [← h]⟩
    | _ => cases h
  · rintro ⟨cause, rfl⟩
    rfl

/-! ### Forms -/

namespace Sexp

mutual

/-- The form with its spans replaced. -/
def mapSpans (f : Span → Span) : Sexp → Sexp
  | atom text span => atom text (f span)
  | list items span => list (mapSpansAll f items) (f span)

/-- The forms with their spans replaced. -/
def mapSpansAll (f : Span → Span) : List Sexp → List Sexp
  | [] => []
  | e :: es => mapSpans f e :: mapSpansAll f es

end

variable {f : Span → Span}

theorem mapSpansAll_eq_map (es : List Sexp) : mapSpansAll f es = es.map (mapSpans f) := by
  induction es with
  | nil => rfl
  | cons e es ih => rw [mapSpansAll, ih, List.map_cons]

end Sexp

/-! ### Patterns -/

namespace Pattern

mutual

/-- The pattern with its spans replaced. -/
def mapSpans (f : Span → Span) : Pattern → Pattern
  | wildcard span => wildcard (span.map f)
  | binding name span => binding name (span.map f)
  | number value span => number value (span.map f)
  | boolean value span => boolean value (span.map f)
  | string value span => string value (span.map f)
  | construct name args span => construct name (mapSpansAll f args) (span.map f)
  | pair first second span => pair (mapSpans f first) (mapSpans f second) (span.map f)

/-- The patterns with their spans replaced. -/
def mapSpansAll (f : Span → Span) : List Pattern → List Pattern
  | [] => []
  | p :: ps => mapSpans f p :: mapSpansAll f ps

end

mutual

/-- The spans of the pattern and its parts. -/
def spans : Pattern → List Span
  | wildcard span | binding _ span | number _ span | boolean _ span | string _ span => span.toList
  | construct _ args span => span.toList ++ spansAll args
  | pair first second span => span.toList ++ (spans first ++ spans second)

/-- The spans of the patterns and their parts. -/
def spansAll : List Pattern → List Span
  | [] => []
  | p :: ps => spans p ++ spansAll ps

end

variable {f : Span → Span}

theorem mapSpansAll_eq_map (ps : List Pattern) : mapSpansAll f ps = ps.map (mapSpans f) := by
  induction ps with
  | nil => rfl
  | cons p ps ih => rw [mapSpansAll, ih, List.map_cons]

@[simp]
theorem length_mapSpansAll (ps : List Pattern) : (mapSpansAll f ps).length = ps.length := by
  rw [mapSpansAll_eq_map, List.length_map]

@[simp]
theorem span_mapSpans (p : Pattern) : (p.mapSpans f).span = p.span.map f := by
  cases p <;> rfl

mutual

@[simp]
theorem text_mapSpans : ∀ p : Pattern, (p.mapSpans f).text = p.text
  | wildcard _ | binding .. | number .. | boolean .. | string .. => rfl
  | construct _ [] _ => rfl
  | construct name (arg :: args) span => by
    rw [mapSpans, mapSpansAll, text, text, texts, texts, text_mapSpans arg, texts_mapSpansAll args]
  | pair first second _ => by
    rw [mapSpans, text, text, text_mapSpans first, text_mapSpans second]

theorem texts_mapSpansAll : ∀ ps : List Pattern, texts (mapSpansAll f ps) = texts ps
  | [] => rfl
  | p :: ps => by rw [mapSpansAll, texts, texts, text_mapSpans p, texts_mapSpansAll ps]

end

mutual

theorem mapSpans_eq_self : ∀ {p : Pattern}, (∀ s ∈ p.spans, f s = s) → p.mapSpans f = p
  | wildcard _, h | binding .., h | number .., h | boolean .., h | string .., h => by
    rw [mapSpans, map_eq_self h]
  | construct name args span, h => by
    rw [spans, List.forall_mem_append] at h
    rw [mapSpans, map_eq_self h.1, mapSpansAll_eq_self h.2]
  | pair first second span, h => by
    rw [spans, List.forall_mem_append, List.forall_mem_append] at h
    rw [mapSpans, map_eq_self h.1, mapSpans_eq_self h.2.1, mapSpans_eq_self h.2.2]

theorem mapSpansAll_eq_self :
    ∀ {ps : List Pattern}, (∀ s ∈ spansAll ps, f s = s) → mapSpansAll f ps = ps
  | [], _ => rfl
  | p :: ps, h => by
    rw [spansAll, List.forall_mem_append] at h
    rw [mapSpansAll, mapSpans_eq_self h.1, mapSpansAll_eq_self h.2]

end

mutual

theorem spans_mapSpans : ∀ p : Pattern, (p.mapSpans f).spans = p.spans.map f
  | wildcard _ | binding .. | number .. | boolean .. | string .. => by
    simp only [mapSpans, spans, toList_map]
  | construct _ args _ => by
    simp only [mapSpans, spans, toList_map, List.map_append, spansAll_mapSpansAll args]
  | pair first second _ => by
    simp only [mapSpans, spans, toList_map, List.map_append, spans_mapSpans first,
      spans_mapSpans second]

theorem spansAll_mapSpansAll : ∀ ps : List Pattern,
    spansAll (mapSpansAll f ps) = (spansAll ps).map f
  | [] => rfl
  | p :: ps => by
    rw [mapSpansAll, spansAll, spansAll, List.map_append, spans_mapSpans p, spansAll_mapSpansAll ps]

end

mutual

theorem mapSpans_mapSpans (f g : Span → Span) :
    ∀ p : Pattern, (p.mapSpans f).mapSpans g = p.mapSpans (g ∘ f)
  | wildcard _ | binding .. | number .. | boolean .. | string .. => by
    simp only [mapSpans, Option.map_map]
  | construct name args span => by
    simp only [mapSpans, Option.map_map, mapSpansAll_mapSpansAll f g args]
  | pair first second span => by
    simp only [mapSpans, Option.map_map, mapSpans_mapSpans f g first, mapSpans_mapSpans f g second]

theorem mapSpansAll_mapSpansAll (f g : Span → Span) :
    ∀ ps : List Pattern, mapSpansAll g (mapSpansAll f ps) = mapSpansAll (g ∘ f) ps
  | [] => rfl
  | p :: ps => by
    rw [mapSpansAll, mapSpansAll, mapSpansAll, mapSpans_mapSpans f g p,
      mapSpansAll_mapSpansAll f g ps]

end

end Pattern

/-! ### Expressions -/

namespace Expr

mutual

/-- The expression with its spans replaced, by `inner` in the bodies of functions and by `outer`
outside of them. -/
def mapSpans (inner : Span → Span) : (outer : Span → Span) → Expr → Expr
  | outer, var name span => var name (span.map outer)
  | outer, number value span => number value (span.map outer)
  | outer, boolean value span => boolean value (span.map outer)
  | outer, not operand span => not (mapSpans inner outer operand) (span.map outer)
  | outer, binary op left right span =>
    binary op (mapSpans inner outer left) (mapSpans inner outer right) (span.map outer)
  | outer, cond condition thenBranch elseBranch span =>
    cond (mapSpans inner outer condition) (mapSpans inner outer thenBranch)
      (mapSpans inner outer elseBranch) (span.map outer)
  | outer, lambda param paramTy body span =>
    lambda param paramTy (mapSpans inner inner body) (span.map outer)
  | outer, app head args span =>
    app (mapSpans inner outer head) (mapSpansAll inner outer args) (span.map outer)
  | outer, pair first second span =>
    pair (mapSpans inner outer first) (mapSpans inner outer second) (span.map outer)
  | outer, fst operand span => fst (mapSpans inner outer operand) (span.map outer)
  | outer, snd operand span => snd (mapSpans inner outer operand) (span.map outer)
  | outer, construct name args span =>
    construct name (mapSpansAll inner outer args) (span.map outer)
  | outer, cases scrutinee ps branches span =>
    cases (mapSpans inner outer scrutinee) (Pattern.mapSpansAll outer ps)
      (mapSpansAll inner outer branches) (span.map outer)

/-- The expressions with their spans replaced. -/
def mapSpansAll (inner : Span → Span) : (outer : Span → Span) → List Expr → List Expr
  | _, [] => []
  | outer, e :: es => mapSpans inner outer e :: mapSpansAll inner outer es

end

mutual

/-- The spans of the nodes that stand outside of the bodies of functions. -/
def outerSpans : Expr → List Span
  | var _ span | number _ span | boolean _ span | lambda _ _ _ span => span.toList
  | not operand span | fst operand span | snd operand span => span.toList ++ outerSpans operand
  | binary _ left right span | pair left right span =>
    span.toList ++ (outerSpans left ++ outerSpans right)
  | cond condition thenBranch elseBranch span =>
    span.toList ++ (outerSpans condition ++ (outerSpans thenBranch ++ outerSpans elseBranch))
  | app head args span => span.toList ++ (outerSpans head ++ outerSpansAll args)
  | construct _ args span => span.toList ++ outerSpansAll args
  | cases scrutinee ps branches span =>
    span.toList ++ (outerSpans scrutinee ++ (Pattern.spansAll ps ++ outerSpansAll branches))

/-- The spans of the nodes of the expressions that stand outside of the bodies of functions. -/
def outerSpansAll : List Expr → List Span
  | [] => []
  | e :: es => outerSpans e ++ outerSpansAll es

end

mutual

/-- The spans of the nodes that stand in the body of a function. -/
def bodySpans : Expr → List Span
  | var .. | number .. | boolean .. => []
  | lambda _ _ body _ => outerSpans body ++ bodySpans body
  | not operand _ | fst operand _ | snd operand _ => bodySpans operand
  | binary _ left right _ | pair left right _ => bodySpans left ++ bodySpans right
  | cond condition thenBranch elseBranch _ =>
    bodySpans condition ++ (bodySpans thenBranch ++ bodySpans elseBranch)
  | app head args _ => bodySpans head ++ bodySpansAll args
  | construct _ args _ => bodySpansAll args
  | cases scrutinee _ branches _ => bodySpans scrutinee ++ bodySpansAll branches

/-- The spans of the nodes of the expressions that stand in the body of a function. -/
def bodySpansAll : List Expr → List Span
  | [] => []
  | e :: es => bodySpans e ++ bodySpansAll es

end

variable {inner outer : Span → Span}

theorem mapSpansAll_eq_map (es : List Expr) :
    mapSpansAll inner outer es = es.map (mapSpans inner outer) := by
  induction es with
  | nil => rfl
  | cons e es ih => rw [mapSpansAll, ih, List.map_cons]

@[simp]
theorem length_mapSpansAll (es : List Expr) : (mapSpansAll inner outer es).length = es.length := by
  rw [mapSpansAll_eq_map, List.length_map]

@[simp]
theorem span_mapSpans (e : Expr) : (e.mapSpans inner outer).span = e.span.map outer := by
  cases e <;> rfl

mutual

@[simp]
theorem text_mapSpans :
    ∀ {outer : Span → Span} (e : Expr), (e.mapSpans inner outer).text = e.text
  | _, var .. | _, number .. | _, boolean .. => rfl
  | _, not operand _ => by rw [mapSpans, text, text, text_mapSpans operand]
  | _, binary _ left right _ => by
    rw [mapSpans, text, text, text_mapSpans left, text_mapSpans right]
  | _, cond condition thenBranch elseBranch _ => by
    rw [mapSpans, text, text, text_mapSpans condition, text_mapSpans thenBranch,
      text_mapSpans elseBranch]
  | _, lambda _ _ body _ => by rw [mapSpans, text, text, text_mapSpans body]
  | _, app head args _ => by rw [mapSpans, text, text, text_mapSpans head, texts_mapSpansAll args]
  | _, pair first second _ => by
    rw [mapSpans, text, text, text_mapSpans first, text_mapSpans second]
  | _, fst operand _ => by rw [mapSpans, text, text, text_mapSpans operand]
  | _, snd operand _ => by rw [mapSpans, text, text, text_mapSpans operand]
  | _, construct _ [] _ => rfl
  | _, construct _ (arg :: args) _ => by
    rw [mapSpans, mapSpansAll, text, text, texts, texts, text_mapSpans arg, texts_mapSpansAll args]
  | _, cases scrutinee ps branches _ => by
    rw [mapSpans, text, text, text_mapSpans scrutinee, armTexts_mapSpansAll ps branches]

theorem texts_mapSpansAll :
    ∀ {outer : Span → Span} (es : List Expr), texts (mapSpansAll inner outer es) = texts es
  | _, [] => rfl
  | _, e :: es => by rw [mapSpansAll, texts, texts, text_mapSpans e, texts_mapSpansAll es]

theorem armTexts_mapSpansAll :
    ∀ {outer : Span → Span} (ps : List Pattern) (es : List Expr),
      armTexts (Pattern.mapSpansAll outer ps) (mapSpansAll inner outer es) = armTexts ps es
  | _, [], _ | _, _ :: _, [] => by simp [Pattern.mapSpansAll, mapSpansAll, armTexts]
  | _, p :: ps, e :: es => by
    rw [Pattern.mapSpansAll, mapSpansAll, armTexts, armTexts, p.text_mapSpans, text_mapSpans e,
      armTexts_mapSpansAll ps es]

end

mutual

theorem mapSpans_eq_self :
    ∀ {outer : Span → Span} {e : Expr}, (∀ s ∈ e.bodySpans, inner s = s) →
      (∀ s ∈ e.outerSpans, outer s = s) → e.mapSpans inner outer = e
  | _, var .., _, h | _, number .., _, h | _, boolean .., _, h => by
    rw [mapSpans, map_eq_self h]
  | _, lambda _ _ body _, h, h' => by
    rw [bodySpans, List.forall_mem_append] at h
    rw [mapSpans, map_eq_self h', mapSpans_eq_self h.2 h.1]
  | _, not operand _, h, h' | _, fst operand _, h, h' | _, snd operand _, h, h' => by
    rw [bodySpans] at h
    rw [outerSpans, List.forall_mem_append] at h'
    rw [mapSpans, map_eq_self h'.1, mapSpans_eq_self h h'.2]
  | _, binary _ left right _, h, h' | _, pair left right _, h, h' => by
    rw [bodySpans, List.forall_mem_append] at h
    rw [outerSpans, List.forall_mem_append, List.forall_mem_append] at h'
    rw [mapSpans, map_eq_self h'.1, mapSpans_eq_self h.1 h'.2.1, mapSpans_eq_self h.2 h'.2.2]
  | _, cond condition thenBranch elseBranch _, h, h' => by
    rw [bodySpans, List.forall_mem_append, List.forall_mem_append] at h
    rw [outerSpans, List.forall_mem_append, List.forall_mem_append, List.forall_mem_append] at h'
    rw [mapSpans, map_eq_self h'.1, mapSpans_eq_self h.1 h'.2.1,
      mapSpans_eq_self h.2.1 h'.2.2.1, mapSpans_eq_self h.2.2 h'.2.2.2]
  | _, app head args _, h, h' => by
    rw [bodySpans, List.forall_mem_append] at h
    rw [outerSpans, List.forall_mem_append, List.forall_mem_append] at h'
    rw [mapSpans, map_eq_self h'.1, mapSpans_eq_self h.1 h'.2.1,
      mapSpansAll_eq_self h.2 h'.2.2]
  | _, construct _ args _, h, h' => by
    rw [outerSpans, List.forall_mem_append] at h'
    rw [mapSpans, map_eq_self h'.1, mapSpansAll_eq_self h h'.2]
  | _, cases scrutinee ps branches _, h, h' => by
    rw [bodySpans, List.forall_mem_append] at h
    rw [outerSpans, List.forall_mem_append, List.forall_mem_append, List.forall_mem_append] at h'
    rw [mapSpans, map_eq_self h'.1, mapSpans_eq_self h.1 h'.2.1,
      Pattern.mapSpansAll_eq_self h'.2.2.1, mapSpansAll_eq_self h.2 h'.2.2.2]

theorem mapSpansAll_eq_self :
    ∀ {outer : Span → Span} {es : List Expr}, (∀ s ∈ bodySpansAll es, inner s = s) →
      (∀ s ∈ outerSpansAll es, outer s = s) → mapSpansAll inner outer es = es
  | _, [], _, _ => rfl
  | _, e :: es, h, h' => by
    rw [bodySpansAll, List.forall_mem_append] at h
    rw [outerSpansAll, List.forall_mem_append] at h'
    rw [mapSpansAll, mapSpans_eq_self h.1 h'.1, mapSpansAll_eq_self h.2 h'.2]

end

mutual

/-- `outerSpans` of an expression that is moved: `outer` moves them. -/
theorem outerSpans_mapSpans :
    ∀ {outer : Span → Span} (e : Expr), (e.mapSpans inner outer).outerSpans = e.outerSpans.map outer
  | _, var .. | _, number .. | _, boolean .. | _, lambda .. => by
    simp only [mapSpans, outerSpans, toList_map]
  | _, not operand _ | _, fst operand _ | _, snd operand _ => by
    simp only [mapSpans, outerSpans, toList_map, List.map_append, outerSpans_mapSpans operand]
  | _, binary _ left right _ | _, pair left right _ => by
    simp only [mapSpans, outerSpans, toList_map, List.map_append, outerSpans_mapSpans left,
      outerSpans_mapSpans right]
  | _, cond condition thenBranch elseBranch _ => by
    simp only [mapSpans, outerSpans, toList_map, List.map_append, outerSpans_mapSpans condition,
      outerSpans_mapSpans thenBranch, outerSpans_mapSpans elseBranch]
  | _, app head args _ => by
    simp only [mapSpans, outerSpans, toList_map, List.map_append, outerSpans_mapSpans head,
      outerSpansAll_mapSpansAll args]
  | _, construct _ args _ => by
    simp only [mapSpans, outerSpans, toList_map, List.map_append, outerSpansAll_mapSpansAll args]
  | _, cases scrutinee ps branches _ => by
    simp only [mapSpans, outerSpans, toList_map, List.map_append, outerSpans_mapSpans scrutinee,
      Pattern.spansAll_mapSpansAll ps, outerSpansAll_mapSpansAll branches]

theorem outerSpansAll_mapSpansAll :
    ∀ {outer : Span → Span} (es : List Expr),
      outerSpansAll (mapSpansAll inner outer es) = (outerSpansAll es).map outer
  | _, [] => rfl
  | _, e :: es => by
    rw [mapSpansAll, outerSpansAll, outerSpansAll, List.map_append, outerSpans_mapSpans e,
      outerSpansAll_mapSpansAll es]

end

mutual

/-- `bodySpans` of an expression that is moved: `inner` moves them. -/
theorem bodySpans_mapSpans :
    ∀ {outer : Span → Span} (e : Expr), (e.mapSpans inner outer).bodySpans = e.bodySpans.map inner
  | _, var .. | _, number .. | _, boolean .. => rfl
  | _, lambda _ _ body _ => by
    rw [mapSpans, bodySpans, bodySpans, List.map_append, outerSpans_mapSpans body,
      bodySpans_mapSpans body]
  | _, not operand _ | _, fst operand _ | _, snd operand _ => by
    rw [mapSpans, bodySpans, bodySpans, bodySpans_mapSpans operand]
  | _, binary _ left right _ | _, pair left right _ => by
    rw [mapSpans, bodySpans, bodySpans, List.map_append, bodySpans_mapSpans left,
      bodySpans_mapSpans right]
  | _, cond condition thenBranch elseBranch _ => by
    rw [mapSpans, bodySpans, bodySpans, List.map_append, List.map_append,
      bodySpans_mapSpans condition, bodySpans_mapSpans thenBranch, bodySpans_mapSpans elseBranch]
  | _, app head args _ => by
    rw [mapSpans, bodySpans, bodySpans, List.map_append, bodySpans_mapSpans head,
      bodySpansAll_mapSpansAll args]
  | _, construct _ args _ => by rw [mapSpans, bodySpans, bodySpans, bodySpansAll_mapSpansAll args]
  | _, cases scrutinee _ branches _ => by
    rw [mapSpans, bodySpans, bodySpans, List.map_append, bodySpans_mapSpans scrutinee,
      bodySpansAll_mapSpansAll branches]

theorem bodySpansAll_mapSpansAll :
    ∀ {outer : Span → Span} (es : List Expr),
      bodySpansAll (mapSpansAll inner outer es) = (bodySpansAll es).map inner
  | _, [] => rfl
  | _, e :: es => by
    rw [mapSpansAll, bodySpansAll, bodySpansAll, List.map_append, bodySpans_mapSpans e,
      bodySpansAll_mapSpansAll es]

end

mutual

/-- `mapSpans` twice is `mapSpans` once. -/
theorem mapSpans_mapSpans (inner inner' : Span → Span) :
    ∀ (outer outer' : Span → Span) (e : Expr), (e.mapSpans inner outer).mapSpans inner' outer' =
      e.mapSpans (inner' ∘ inner) (outer' ∘ outer)
  | _, _, var .. | _, _, number .. | _, _, boolean .. => by simp only [mapSpans, Option.map_map]
  | _, _, not operand _ | _, _, fst operand _ | _, _, snd operand _ => by
    simp only [mapSpans, Option.map_map, mapSpans_mapSpans inner inner' _ _ operand]
  | _, _, binary _ left right _ | _, _, pair left right _ => by
    simp only [mapSpans, Option.map_map, mapSpans_mapSpans inner inner' _ _ left,
      mapSpans_mapSpans inner inner' _ _ right]
  | _, _, cond condition thenBranch elseBranch _ => by
    simp only [mapSpans, Option.map_map, mapSpans_mapSpans inner inner' _ _ condition,
      mapSpans_mapSpans inner inner' _ _ thenBranch, mapSpans_mapSpans inner inner' _ _ elseBranch]
  | _, _, lambda _ _ body _ => by
    simp only [mapSpans, Option.map_map, mapSpans_mapSpans inner inner' _ _ body]
  | _, _, app head args _ => by
    simp only [mapSpans, Option.map_map, mapSpans_mapSpans inner inner' _ _ head,
      mapSpansAll_mapSpansAll inner inner' _ _ args]
  | _, _, construct _ args _ => by
    simp only [mapSpans, Option.map_map, mapSpansAll_mapSpansAll inner inner' _ _ args]
  | outer, outer', cases scrutinee ps branches _ => by
    simp only [mapSpans, Option.map_map, mapSpans_mapSpans inner inner' _ _ scrutinee,
      Pattern.mapSpansAll_mapSpansAll outer outer' ps,
      mapSpansAll_mapSpansAll inner inner' _ _ branches]

theorem mapSpansAll_mapSpansAll (inner inner' : Span → Span) :
    ∀ (outer outer' : Span → Span) (es : List Expr),
      mapSpansAll inner' outer' (mapSpansAll inner outer es) =
        mapSpansAll (inner' ∘ inner) (outer' ∘ outer) es
  | _, _, [] => rfl
  | _, _, e :: es => by
    rw [mapSpansAll, mapSpansAll, mapSpansAll, mapSpans_mapSpans inner inner' _ _ e,
      mapSpansAll_mapSpansAll inner inner' _ _ es]

end

end Expr

/-! ### Statements -/

/-- The constructor declaration with its span replaced. -/
def ConstructorDecl.mapSpan (f : Span → Span) (c : ConstructorDecl) : ConstructorDecl :=
  { c with span := c.span.map f }

namespace Stmt

/-- The statement with its spans replaced, by `inner` in the bodies of functions and by `outer`
outside of them. -/
def mapSpans (inner outer : Span → Span) : Stmt → Stmt
  | define name value span => define name (value.mapSpans inner outer) (span.map outer)
  | assign target value span =>
    assign (target.mapSpans inner outer) (value.mapSpans inner outer) (span.map outer)
  | print value span => print (value.mapSpans inner outer) (span.map outer)
  | data name constructors span =>
    data name (constructors.map (ConstructorDecl.mapSpan outer)) (span.map outer)

/-- The spans of the nodes of the statement that stand outside of the bodies of functions. -/
def outerSpans : Stmt → List Span
  | define _ value span | print value span => span.toList ++ value.outerSpans
  | assign target value span => span.toList ++ (target.outerSpans ++ value.outerSpans)
  | data _ constructors span => span.toList ++ constructors.flatMap (·.span.toList)

/-- The spans of the nodes of the statement that stand in the body of a function. -/
def bodySpans : Stmt → List Span
  | define _ value _ | print value _ => value.bodySpans
  | assign target value _ => target.bodySpans ++ value.bodySpans
  | data .. => []

variable {inner outer : Span → Span}

@[simp]
theorem span_mapSpans (s : Stmt) : (s.mapSpans inner outer).span = s.span.map outer := by
  cases s <;> rfl

theorem mapSpans_eq_self {s : Stmt} (h : ∀ t ∈ s.bodySpans, inner t = t)
    (h' : ∀ t ∈ s.outerSpans, outer t = t) : s.mapSpans inner outer = s := by
  cases s with
  | define name value span | print value span =>
    rw [outerSpans, List.forall_mem_append] at h'
    rw [mapSpans, map_eq_self h'.1, Expr.mapSpans_eq_self h h'.2]
  | assign target value span =>
    rw [bodySpans, List.forall_mem_append] at h
    rw [outerSpans, List.forall_mem_append, List.forall_mem_append] at h'
    rw [mapSpans, map_eq_self h'.1, Expr.mapSpans_eq_self h.1 h'.2.1,
      Expr.mapSpans_eq_self h.2 h'.2.2]
  | data name constructors span =>
    rw [outerSpans, List.forall_mem_append] at h'
    have hconstructors : ∀ c ∈ constructors, c.mapSpan outer = c := fun c hc => by
      rw [ConstructorDecl.mapSpan,
        map_eq_self fun t ht => h'.2 t (List.mem_flatMap.mpr ⟨c, hc, ht⟩)]
    rw [mapSpans, map_eq_self h'.1, List.map_congr_left hconstructors, List.map_id']

theorem outerSpans_mapSpans (s : Stmt) :
    (s.mapSpans inner outer).outerSpans = s.outerSpans.map outer := by
  cases s with
  | data name constructors span =>
    simp only [mapSpans, outerSpans, toList_map, List.map_append, List.flatMap_map,
      List.map_flatMap, ConstructorDecl.mapSpan]
  | _ => simp only [mapSpans, outerSpans, toList_map, List.map_append, Expr.outerSpans_mapSpans]

theorem bodySpans_mapSpans (s : Stmt) :
    (s.mapSpans inner outer).bodySpans = s.bodySpans.map inner := by
  cases s with
  | data => rfl
  | _ => simp only [mapSpans, bodySpans, List.map_append, Expr.bodySpans_mapSpans]

theorem mapSpans_mapSpans (inner inner' outer outer' : Span → Span) (s : Stmt) :
    (s.mapSpans inner outer).mapSpans inner' outer' =
      s.mapSpans (inner' ∘ inner) (outer' ∘ outer) := by
  cases s with
  | data name constructors span =>
    simp only [mapSpans, Option.map_map, List.map_map, Stmt.data.injEq, true_and, and_true]
    refine List.map_congr_left fun c _ => ?_
    rw [Function.comp_apply, ConstructorDecl.mapSpan, ConstructorDecl.mapSpan,
      ConstructorDecl.mapSpan, Option.map_map]
  | _ => simp only [mapSpans, Option.map_map, Expr.mapSpans_mapSpans]

end Stmt

namespace Program

/-- The program with its spans replaced. -/
def mapSpans (f : Span → Span) (p : Program) : Program :=
  p.map (Stmt.mapSpans f f)

/-- The spans of the nodes of the program that stand in the body of a function. -/
def bodySpans (p : Program) : List Span :=
  p.flatMap Stmt.bodySpans

/-- The spans of the nodes of the program. -/
def spans (p : Program) : List Span :=
  p.flatMap Stmt.outerSpans ++ p.bodySpans

/-- `mapSpans` with a function that fixes the spans of a program changes nothing. -/
theorem mapSpans_eq_self {f : Span → Span} (p : Program) (h : ∀ t ∈ p.spans, f t = t) :
    p.mapSpans f = p := by
  obtain ⟨houter, hbody⟩ := List.forall_mem_append.mp h
  refine (List.map_congr_left fun s hs => ?_).trans (List.map_id p)
  refine Stmt.mapSpans_eq_self (fun t ht => hbody t ?_) fun t ht => houter t ?_
  · exact List.mem_flatMap.mpr ⟨s, hs, ht⟩
  · exact List.mem_flatMap.mpr ⟨s, hs, ht⟩

theorem bodySpans_mapSpans (f : Span → Span) (p : Program) :
    (p.mapSpans f).bodySpans = p.bodySpans.map f := by
  simp only [mapSpans, bodySpans, List.flatMap_map, List.map_flatMap, Stmt.bodySpans_mapSpans]

theorem spans_mapSpans (f : Span → Span) (p : Program) :
    (p.mapSpans f).spans = p.spans.map f := by
  rw [spans, spans, List.map_append, bodySpans_mapSpans]
  simp only [mapSpans, List.flatMap_map, List.map_flatMap, Stmt.outerSpans_mapSpans]

theorem mapSpans_mapSpans (f g : Span → Span) (p : Program) :
    (p.mapSpans f).mapSpans g = p.mapSpans (g ∘ f) := by
  rw [mapSpans, mapSpans, mapSpans, List.map_map]
  exact List.map_congr_left fun s _ => s.mapSpans_mapSpans f g f g

end Program

end Casewise
