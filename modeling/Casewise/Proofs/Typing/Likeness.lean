import Casewise.Proofs.Pattern.Likeness
import Casewise.Proofs.Ty.Likeness
import Casewise.Typing.Check
import Casewise.Typing.Subject

/-!
# Contexts that the checker cannot tell apart

Where names mean like types, expressions have like types or fail with the same error, and statements
that check leave contexts that are alike again. Programs may also stand in different places; a place
shows only in the place of an error.

The argument is made once for every likeness of types and of contexts.

## Main definitions

* `Context.Likeness`: likeness of contexts.

## Main statements

* `Context.inferWith_alongside`: inference in like contexts.
* `Check.stmtWith_mirrors`, `Check.program_mirrors`: checking in like contexts.
-/

namespace Casewise

variable {T : Ty → Ty → Prop} {S : Context → Context → Prop} {f : Span → Span} {Γ Γ' : Context}

/-! ### Likeness of contexts -/

/-- A type belongs to a data type, is a literal's type or is a pair just if a like one is, so
patterns see no difference: `Subject.Likeness`. -/
theorem Ty.Likeness.subject (hT : Ty.Likeness T) : Subject.Likeness T where
  fitsNumber_eq h _ := (hT.agrees_eq h (hT.refl .nat)).symm
  fitsBoolean_eq h _ := (hT.agrees_eq h (hT.refl .bool)).symm
  fitsString_eq h _ := (hT.agrees_eq h (hT.refl .str)).symm
  components?_rel {a b} h := by
    rcases hT.pair_cases h with ⟨x, x', y, y', rfl, rfl, hx, hy⟩ | ⟨ha, hb⟩
    · exact .some ⟨hx, hy⟩
    · have hnone : ∀ c : Ty, (∀ x y, c ≠ .pair x y) → Subject.components? c = none := by
        intro c hc
        cases c with
        | pair x y => exact absurd rfl (hc x y)
        | _ => rfl
      rw [hnone a ha, hnone b hb]
      exact .none
  fields?_rel {a b} h info := by
    change Option.Rel _ (if a.owner? = some info.data then some info.fields else none)
      (if b.owner? = some info.data then some info.fields else none)
    rw [hT.owner?_eq h]
    split
    · exact .some (List.forall₂_same.mpr fun ty _ => hT.refl ty)
    · exact .none

/-- The relation is one of contexts in which names mean types that are alike by `T`, and in which
the same data types are declared. -/
structure Context.Likeness (T : Ty → Ty → Prop) (S : Context → Context → Prop) : Prop where
  /-- A name means like types. -/
  get?_rel : ∀ {Γ Γ'}, S Γ Γ' → ∀ name, Option.Rel T (Γ.get? name) (Γ'.get? name)
  /-- The same names are bound in the innermost levels. -/
  hasLocal_eq : ∀ {Γ Γ'}, S Γ Γ' → ∀ name, Γ'.hasLocal name = Γ.hasLocal name
  /-- The same data types are declared. -/
  data?_eq : ∀ {Γ Γ'}, S Γ Γ' → ∀ name, Γ'.registry.data? name = Γ.registry.data? name
  /-- The same constructors are declared. -/
  constructor?_eq : ∀ {Γ Γ'}, S Γ Γ' → ∀ name,
    Γ'.registry.constructor? name = Γ.registry.constructor? name
  /-- Inside of new levels that are alike, the contexts are alike. -/
  extend : ∀ {Γ Γ'}, S Γ Γ' → ∀ {t u : Table Ty}, Table.Alike T t u → S (Γ.extend t) (Γ'.extend u)
  /-- After a name has been bound to like types, the contexts are alike. -/
  insert : ∀ {Γ Γ'}, S Γ Γ' → ∀ (name : String) {a b}, T a b →
    S { Γ with here := Γ.here.insert name a } { Γ' with here := Γ'.here.insert name b }
  /-- After a data type has been declared, the contexts are alike. -/
  declare : ∀ name constructors,
    Mirrors Eq S (fun _ _ => True) (Chain.declare name constructors)
      (Chain.declare name constructors)

/-! ### Expressions -/

section Expect

variable {a a' b b' : Ty}

/-- `mismatch`, what stands in a wrong place, is the same error for like types. -/
theorem mismatch_moved {expected expected' : String} (hexpected : expected' = expected)
    (hT : Ty.Likeness T) (h : T a b) (place : String) (span : Option Span) :
    LangError.Moved f (mismatch expected a place span)
      (mismatch expected' b place (span.map f)) := by
  rw [LangError.Moved, mismatch, mismatch, hexpected, hT.text_eq h]
  rfl

/-- `expectTy`: like types stand where like types are expected. -/
theorem expectTy_alongside (hT : Ty.Likeness T) (h : T a a') (h' : T b b') (place : String)
    (span : Option Span) : Alongside (LangError.Moved f) (fun _ _ => True)
      (expectTy a b place span) (expectTy a' b' place (span.map f)) := by
  rw [expectTy, expectTy, hT.agrees_eq h h']
  split
  · exact .ok trivial
  · exact .error (mismatch_moved (hT.text_eq h) hT h' place span)

/-- `expectArgsFrom`: arguments of like types suit like parameters one by one. -/
theorem expectArgsFrom_alongside (hT : Ty.Likeness T) (what : String) {inputs inputs' : List Ty}
    (hinputs : List.Forall₂ T inputs inputs') {found found' : List Ty}
    (hfound : List.Forall₂ T found found') (args : List Expr) (index : Nat) :
    Alongside (LangError.Moved f) (fun _ _ => True) (expectArgsFrom what index inputs found args)
      (expectArgsFrom what index inputs' found' (Expr.mapSpansAll f f args)) := by
  induction hinputs generalizing found found' args index with
  | nil => exact .ok trivial
  | cons hinput _ ih =>
    cases hfound with
    | nil => exact .ok trivial
    | cons hty htys =>
      cases args with
      | nil => exact .ok trivial
      | cons arg args =>
        rw [Expr.mapSpansAll, expectArgsFrom, expectArgsFrom, Expr.span_mapSpans]
        exact (expectTy_alongside hT hinput hty _ _).bind fun _ _ _ => ih htys args _

/-- `expectArgs`: arguments of like types suit like parameters. -/
theorem expectArgs_alongside (hT : Ty.Likeness T) (what : String) {inputs inputs' : List Ty}
    (hinputs : List.Forall₂ T inputs inputs') {found found' : List Ty}
    (hfound : List.Forall₂ T found found') (args : List Expr) (span : Option Span) :
    Alongside (LangError.Moved f) (fun _ _ => True) (expectArgs what inputs found args span)
      (expectArgs what inputs' found' (Expr.mapSpansAll f f args) (span.map f)) := by
  rw [expectArgs, expectArgs, hinputs.length_eq, hfound.length_eq]
  split
  · exact .error rfl
  · exact expectArgsFrom_alongside hT what hinputs hfound args 1

end Expect

namespace Context

variable {agree : Ty → Ty → Bool}

mutual

/-- In like contexts `inferWith` gives an expression like types or fails with the same error, also
if it stands in another place. -/
theorem inferWith_alongside (hT : Ty.Likeness T) (hS : Context.Likeness T S)
    (hagree : ∀ {a a' b b'}, T a a' → T b b' → agree a' b' = agree a b) :
    ∀ (e : Expr) {Γ Γ' : Context}, S Γ Γ' →
      Alongside (LangError.Moved f) T (Γ.inferWith agree e) (Γ'.inferWith agree (e.mapSpans f f))
  | .number .., _, _, _ | .boolean .., _, _, _ => by
    rw [Expr.mapSpans, inferWith, inferWith]
    exact .located (.ok (hT.refl _)) _
  | .var name span, Γ, Γ', h => by
    rw [Expr.mapSpans, inferWith, inferWith]
    refine .located ?_ span
    have hname := hS.get?_rel h name
    generalize Γ.get? name = ty, Γ'.get? name = ty' at hname ⊢
    cases hname with
    | some hty => exact .ok hty
    | none =>
      simp only
      split
      · exact .ok (hT.refl _)
      · exact .error rfl
  | .not operand span, _, _, h => by
    rw [Expr.mapSpans, inferWith, inferWith]
    refine .located ?_ span
    refine (inferWith_alongside hT hS hagree operand h).bind fun a a' ha => ?_
    refine (expectTy_alongside hT (hT.refl _) ha _ span).bind fun _ _ _ => ?_
    exact .ok (hT.refl _)
  | .binary op left right span, _, _, h => by
    rw [Expr.mapSpans, inferWith, inferWith]
    refine .located ?_ span
    refine (inferWith_alongside hT hS hagree left h).bind fun a a' ha => ?_
    refine (inferWith_alongside hT hS hagree right h).bind fun b b' hb => ?_
    refine (expectTy_alongside hT (hT.refl _) ha _ span).bind fun _ _ _ => ?_
    refine (expectTy_alongside hT (hT.refl _) hb _ span).bind fun _ _ _ => ?_
    exact .ok (hT.refl _)
  | .cond condition thenBranch elseBranch span, _, _, h => by
    rw [Expr.mapSpans, inferWith, inferWith]
    refine .located ?_ span
    refine (inferWith_alongside hT hS hagree condition h).bind fun a a' ha => ?_
    refine (inferWith_alongside hT hS hagree thenBranch h).bind fun b b' hb => ?_
    refine (inferWith_alongside hT hS hagree elseBranch h).bind fun c c' hc => ?_
    rw [Expr.span_mapSpans, Expr.span_mapSpans, hagree hb hc]
    refine (expectTy_alongside hT (hT.refl _) ha _ condition.span).bind fun _ _ _ => ?_
    split
    · exact .ok hc
    · exact .error (mismatch_moved (hT.text_eq hb) hT hc _ elseBranch.span)
  | .lambda param paramTy body span, _, _, h => by
    rw [Expr.mapSpans, inferWith, inferWith]
    refine .located ?_ span
    have hbody := hS.extend h (.singleton (hT.refl paramTy) param)
    refine (inferWith_alongside hT hS hagree body hbody).bind fun b b' hb => ?_
    exact .ok (hT.arrow (.cons (hT.refl paramTy) .nil) hb)
  | .app head args span, _, _, h => by
    rw [Expr.mapSpans, inferWith, inferWith]
    refine .located ?_ span
    refine (inferWith_alongside hT hS hagree head h).bind fun a a' ha => ?_
    refine (inferAllWith_alongside hT hS hagree args h).bind fun tys tys' htys => ?_
    rcases hT.arrow_cases ha with
      ⟨inputs, inputs', output, output', rfl, rfl, hins, hout⟩ | ⟨hn, hn'⟩
    · simp only [Expr.text_mapSpans]
      refine (expectArgs_alongside hT _ hins htys args span).bind fun _ _ _ => ?_
      exact .ok hout
    · rw [Expr.span_mapSpans]
      split
      · exact absurd rfl (hn _ _)
      · exact .error (mismatch_moved rfl hT ha _ head.span)
  | .pair first second span, _, _, h => by
    rw [Expr.mapSpans, inferWith, inferWith]
    refine .located ?_ span
    refine (inferWith_alongside hT hS hagree first h).bind fun a a' ha => ?_
    refine (inferWith_alongside hT hS hagree second h).bind fun b b' hb => ?_
    exact .ok (hT.pair ha hb)
  | .fst operand span, _, _, h => by
    rw [Expr.mapSpans, inferWith, inferWith]
    refine .located ?_ span
    refine (inferWith_alongside hT hS hagree operand h).bind fun a a' ha => ?_
    rcases hT.pair_cases ha with ⟨x, x', y, y', rfl, rfl, hx, -⟩ | ⟨hn, hn'⟩
    · exact .ok hx
    · split
      · exact absurd rfl (hn _ _)
      · exact .error (mismatch_moved rfl hT ha _ span)
  | .snd operand span, _, _, h => by
    rw [Expr.mapSpans, inferWith, inferWith]
    refine .located ?_ span
    refine (inferWith_alongside hT hS hagree operand h).bind fun a a' ha => ?_
    rcases hT.pair_cases ha with ⟨x, x', y, y', rfl, rfl, -, hy⟩ | ⟨hn, hn'⟩
    · exact .ok hy
    · split
      · exact absurd rfl (hn _ _)
      · exact .error (mismatch_moved rfl hT ha _ span)
  | .construct name args span, Γ, Γ', h => by
    rw [Expr.mapSpans, inferWith, inferWith, hS.constructor?_eq h]
    refine .located ?_ span
    cases Γ.registry.constructor? name with
    | none => exact .error rfl
    | some info =>
      refine (inferAllWith_alongside hT hS hagree args h).bind fun tys tys' htys => ?_
      have hfields : List.Forall₂ T info.fields info.fields :=
        List.forall₂_same.mpr fun ty _ => hT.refl ty
      refine (expectArgs_alongside hT _ hfields htys args span).bind fun _ _ _ => ?_
      exact .ok (hT.construct htys)
  | .cases scrutinee ps branches span, Γ, Γ', h => by
    rw [Expr.mapSpans, inferWith, inferWith, Pattern.length_mapSpansAll, Expr.length_mapSpansAll]
    refine .located ?_ span
    refine (inferWith_alongside hT hS hagree scrutinee h).bind fun a a' ha => ?_
    split
    · exact .error rfl
    · refine (inferArmsWith_alongside hT hS hagree ha .none ps branches h).bind fun r r' hr => ?_
      cases hr with
      | none => exact .error rfl
      | some hty => exact .ok hty

/-- In like contexts `inferAllWith` gives expressions like types or fails with the same error. -/
theorem inferAllWith_alongside (hT : Ty.Likeness T) (hS : Context.Likeness T S)
    (hagree : ∀ {a a' b b'}, T a a' → T b b' → agree a' b' = agree a b) :
    ∀ (es : List Expr) {Γ Γ' : Context}, S Γ Γ' →
      Alongside (LangError.Moved f) (List.Forall₂ T) (Γ.inferAllWith agree es)
        (Γ'.inferAllWith agree (Expr.mapSpansAll f f es))
  | [], _, _, _ => .ok .nil
  | e :: es, _, _, h => by
    rw [Expr.mapSpansAll, inferAllWith, inferAllWith]
    refine (inferWith_alongside hT hS hagree e h).bind fun a a' ha => ?_
    refine (inferAllWith_alongside hT hS hagree es h).bind fun as as' has => ?_
    exact .ok (.cons ha has)

/-- In like contexts `inferArmsWith` gives the arms of a match on like types like types or fails
with the same error. -/
theorem inferArmsWith_alongside (hT : Ty.Likeness T) (hS : Context.Likeness T S)
    (hagree : ∀ {a a' b b'}, T a a' → T b b' → agree a' b' = agree a b) {subject subject' : Ty}
    (hsubject : T subject subject') {result result' : Option Ty}
    (hresult : Option.Rel T result result') :
    ∀ (ps : List Pattern) (branches : List Expr) {Γ Γ' : Context}, S Γ Γ' →
      Alongside (LangError.Moved f) (Option.Rel T)
        (Γ.inferArmsWith agree subject result ps branches)
        (Γ'.inferArmsWith agree subject' result' (Pattern.mapSpansAll f ps)
          (Expr.mapSpansAll f f branches))
  | [], _, _, _, _ => by
    rw [Pattern.mapSpansAll]
    simp only [inferArmsWith]
    exact .ok hresult
  | _ :: _, [], _, _, _ => by
    rw [Expr.mapSpansAll]
    simp only [inferArmsWith]
    exact .ok hresult
  | p :: ps, branch :: branches, Γ, Γ', h => by
    rw [Pattern.mapSpansAll, Expr.mapSpansAll, inferArmsWith, inferArmsWith, Pattern.text_mapSpans,
      Pattern.span_mapSpans, hT.text_eq hsubject, Expr.span_mapSpans]
    refine (Pattern.bindings?_alongside hT.subject (hS.constructor?_eq h) p hsubject).bind
      fun bound bound' hbound => ?_
    cases hbound with
    | none => exact .error rfl
    | some hbound =>
      refine (inferWith_alongside hT hS hagree branch (hS.extend h hbound)).bind fun a a' ha => ?_
      cases hresult with
      | none => exact inferArmsWith_alongside hT hS hagree hsubject (.some ha) ps branches h
      | some hfirst =>
        refine (expectTy_alongside hT hfirst ha _ branch.span).bind fun _ _ _ => ?_
        exact inferArmsWith_alongside hT hS hagree hsubject (.some hfirst) ps branches h

end

end Context

/-! ### Statements -/

namespace Check

variable {agree : Ty → Ty → Bool}

/-- `withContext` goes in step in like contexts if what is found there does. -/
theorem withContext_mirrors {α β : Type} {rel : α → β → Prop} {F : Context → Except LangError α}
    {G : Context → Except LangError β}
    (h : ∀ Γ Γ', S Γ Γ' → Alongside (LangError.Moved f) rel (F Γ) (G Γ')) :
    Mirrors (LangError.Moved f) S rel (withContext F) (withContext G) :=
  fun Γ Γ' hΓ => ⟨h Γ Γ' hΓ, hΓ⟩

theorem update_mirrors {F G : Context → Except LangError Context}
    (h : ∀ Γ Γ', S Γ Γ' → Alongside (LangError.Moved f) S (F Γ) (G Γ')) :
    Mirrors (LangError.Moved f) S (fun _ _ => True) (update F) (update G) :=
  (withContext_mirrors h).bind fun _ _ hΓ => .set hΓ

/-- `set` of a name to like types in like contexts. -/
theorem set_alongside (hS : Context.Likeness T S) (h : S Γ Γ') (name : String) {a b : Ty}
    (hab : T a b) : Alongside (LangError.Moved f) S (Γ.set name a) (Γ'.set name b) := by
  rw [Chain.set, Chain.set, hS.hasLocal_eq h]
  split
  · exact .error rfl
  · exact .ok (hS.insert h name hab)

/-- `get` of the type of a name in like contexts. -/
theorem get_alongside (hS : Context.Likeness T S) (h : S Γ Γ') (name : String) :
    Alongside (LangError.Moved f) T (Γ.get name) (Γ'.get name) := by
  rw [Chain.get, Chain.get]
  have hname := hS.get?_rel h name
  generalize Γ.get? name = ty, Γ'.get? name = ty' at hname ⊢
  cases hname with
  | some hty => exact .ok hty
  | none => exact .error rfl

/-- `Chain.declare` in like contexts. The error has no place yet. -/
theorem declare_mirrors (hS : Context.Likeness T S) (name : String)
    (constructors : List (String × List Ty)) : Mirrors (LangError.Moved f) S (fun _ _ => True)
      (Chain.declare name constructors) (Chain.declare name constructors) := by
  intro Γ Γ' h
  obtain ⟨hresult, hcontext⟩ := hS.declare name constructors Γ Γ' h
  refine ⟨?_, hcontext⟩
  rcases hout : outcome (Chain.declare name constructors) Γ with ⟨r, Γ₁⟩
  rw [hout] at hresult
  generalize (outcome (Chain.declare name constructors) Γ').1 = r' at hresult ⊢
  cases hresult with
  | ok => exact .ok trivial
  | error he =>
    subst he
    obtain ⟨R, hR, -⟩ := outcome_onPart_eq.mp hout
    obtain ⟨⟨clash, rfl⟩, -⟩ := Registry.declare_eq_error hR
    exact .error rfl

mutual

/-- `declared` checks types alike if the same data types are declared. -/
theorem declared_alongside (own : String) (span : Option Span) {R R' : Registry}
    (h : ∀ name, R'.data? name = R.data? name) :
    ∀ ty : Ty, Alongside (LangError.Moved f) (fun _ _ => True) (declared own span R ty)
      (declared own (span.map f) R' ty)
  | .data name => by
    rw [declared, declared, h]
    split
    · exact .ok trivial
    · exact .error rfl
  | .arrow inputs output => by
    rw [declared, declared]
    exact (allDeclared_alongside own span h inputs).bind fun _ _ _ =>
      declared_alongside own span h output
  | .pair first second => by
    rw [declared, declared]
    exact (declared_alongside own span h first).bind fun _ _ _ =>
      declared_alongside own span h second
  | .prim _ | .construct .. => .ok trivial

theorem allDeclared_alongside (own : String) (span : Option Span) {R R' : Registry}
    (h : ∀ name, R'.data? name = R.data? name) :
    ∀ tys : List Ty, Alongside (LangError.Moved f) (fun _ _ => True) (allDeclared own span R tys)
      (allDeclared own (span.map f) R' tys)
  | [] => .ok trivial
  | ty :: tys => by
    rw [allDeclared, allDeclared]
    exact (declared_alongside own span h ty).bind fun _ _ _ => allDeclared_alongside own span h tys

end

/-- `Check.constructor` goes in step in like contexts. -/
theorem constructor_alongside (hS : Context.Likeness T S) (h : S Γ Γ') (own : String)
    (c : ConstructorDecl) : Alongside (LangError.Moved f) (fun _ _ => True)
      (Check.constructor own Γ c) (Check.constructor own Γ' (c.mapSpan f)) := by
  rw [Check.constructor, Check.constructor]
  change Alongside _ _ _ (do
    if Γ'.hasLocal c.name then throw ⟨.redefinition c.name, c.span.map f⟩
    allDeclared own (c.span.map f) Γ'.registry c.fields)
  rw [hS.hasLocal_eq h]
  cases Γ.hasLocal c.name with
  | true => exact .error rfl
  | false => exact allDeclared_alongside own c.span (hS.data?_eq h) c.fields

/-- `Check.data` goes in step in like contexts. -/
theorem data_mirrors (hT : Ty.Likeness T) (hS : Context.Likeness T S) (name : String)
    (constructors : List ConstructorDecl) (span : Option Span) :
    Mirrors (LangError.Moved f) S (fun _ _ => True) (data name constructors span)
      (data name (constructors.map (ConstructorDecl.mapSpan f)) (span.map f)) := by
  have hall : List.Forall₂ (fun c d => d = c.mapSpan f) constructors
      (constructors.map (ConstructorDecl.mapSpan f)) :=
    forall₂_eq_map_iff.mpr rfl
  have hnames : (constructors.map (ConstructorDecl.mapSpan f)).map (fun c => (c.name, c.fields)) =
      constructors.map fun c => (c.name, c.fields) :=
    List.map_map
  have hchecks (Γ Γ' : Context) (h : S Γ Γ') : Alongside (LangError.Moved f) (fun _ _ => True)
      (if (Γ.registry.data? name).isSome then throw ⟨.redefinition name, span⟩
        else constructors.forM (Check.constructor name Γ))
      (if (Γ'.registry.data? name).isSome then throw ⟨.redefinition name, span.map f⟩
        else (constructors.map (ConstructorDecl.mapSpan f)).forM (Check.constructor name Γ')) := by
    rw [hS.data?_eq h]
    split
    · exact .error rfl
    · refine .forM hall fun c d hd => ?_
      subst hd
      exact constructor_alongside hS h name c
  rw [data, data, hnames]
  refine (withContext_mirrors hchecks).bind fun _ _ _ => ?_
  refine (declare_mirrors hS name _).bind fun _ _ _ => ?_
  refine .forM hall fun c d hd => ?_
  subst hd
  exact update_mirrors fun Γ Γ' h => set_alongside hS h c.name (hT.refl _)

/-- `assign` goes in step in like contexts. -/
theorem assign_alongside (hT : Ty.Likeness T) (hS : Context.Likeness T S)
    (hagree : ∀ {a a' b b'}, T a a' → T b b' → agree a' b' = agree a b) (h : S Γ Γ')
    (target value : Expr) (span : Option Span) : Alongside (LangError.Moved f) (fun _ _ => True)
      (assign agree target value span Γ)
      (assign agree (target.mapSpans f f) (value.mapSpans f f) (span.map f) Γ') := by
  cases target with
  | var name nameSpan =>
    rw [Expr.mapSpans, assign, assign]
    refine (Context.inferWith_alongside hT hS hagree value h).bind fun a a' ha => ?_
    refine (get_alongside hS h name).bind fun b b' hb => ?_
    exact expectTy_alongside hT hb ha _ span
  | _ =>
    -- what is no name stays so, and reads as before
    refine .error ?_
    change LangError.mk _ _ = LangError.mk _ _
    rw [Expr.text_mapSpans, Expr.span_mapSpans]

/-- `stmtWith` goes in step in like contexts, also if the statement stands in another place. -/
theorem stmtWith_mirrors (hT : Ty.Likeness T) (hS : Context.Likeness T S)
    (hagree : ∀ {a a' b b'}, T a a' → T b b' → agree a' b' = agree a b) (s : Stmt) :
    Mirrors (LangError.Moved f) S (fun _ _ => True) (stmtWith agree s)
      (stmtWith agree (s.mapSpans f f)) := by
  have hinfer (e : Expr) : Mirrors (LangError.Moved f) S T (withContext (·.inferWith agree e))
      (withContext (·.inferWith agree (e.mapSpans f f))) :=
    withContext_mirrors fun Γ Γ' h => Context.inferWith_alongside hT hS hagree e h
  rw [stmtWith.eq_def, stmtWith.eq_def, Stmt.span_mapSpans]
  refine .placedAt ?_ s.span
  cases s with
  | define name value span =>
    refine (hinfer value).bind fun a b hab => ?_
    exact update_mirrors fun Γ Γ' h => set_alongside hS h name hab
  | assign target value span =>
    exact withContext_mirrors fun Γ Γ' h => assign_alongside hT hS hagree h target value span
  | print value span => exact (hinfer value).bind fun _ _ _ => .pure trivial
  | data name constructors span => exact data_mirrors hT hS name constructors span

/-- `stmtWith` for each statement of a program goes in step in like contexts, also if the program
stands in another place. -/
theorem program_mirrors (hT : Ty.Likeness T) (hS : Context.Likeness T S)
    (hagree : ∀ {a a' b b'}, T a a' → T b b' → agree a' b' = agree a b) (p : Program) :
    Mirrors (LangError.Moved f) S (fun _ _ => True) (p.forM (stmtWith agree))
      ((p.mapSpans f).forM (stmtWith agree)) := by
  have hall : List.Forall₂ (fun s s' => s' = s.mapSpans f f) p (p.mapSpans f) :=
    forall₂_eq_map_iff.mpr rfl
  refine .forM hall fun s s' hs => ?_
  subst hs
  exact stmtWith_mirrors hT hS hagree s

end Check

end Casewise
