import Casewise.Proofs.Running.Constructors
import Casewise.Proofs.Running.Matching

/-!
# Calling constructors and building with them

A constructor with fields can be used in two ways: its name can be called like that of any function,
and an expression can build with it. The two are checked and evaluated by different rules. A call
takes the type or the value of the name and counts the arguments against it; building looks the
constructor up in the registry and counts against the declared fields. While the name means what its
declaration has made of it, the two come to the same: the same type up to agreement, the same value,
or errors that say the same of the same place in other words.

## Main definitions

* `LangError.Rewords`, `Stop.Rewords`: errors that differ in how they name what they complain about.
* `Run.SameUpToWords`: ends of running that differ in the words of an error and in the record.

## Main statements

* `expectArgs_rewords`: arguments are checked alike for callees of different names.
* `ConstructorDecl.infer_app`, `ConstructorDecl.sameUpToWords_evaluate`: calling and building, when
  they are checked and when they are evaluated.
* `ConstructorDecl.called_as_built`: both at once.
-/

namespace Casewise

/-! ### Errors in other words -/

/-- The causes are of one kind and count the same arguments; the texts that name a callee or a place
may differ. -/
inductive Cause.Rewords : Cause → Cause → Prop
  | refl (cause : Cause) : Rewords cause cause
  /-- As many arguments are expected and given, whatever the callee is called. -/
  | arityMismatch (what what' : String) (expected got : Int) :
    Rewords (.arityMismatch what expected got) (.arityMismatch what' expected got)
  /-- A type or a kind of value does not fit, in whatever words. -/
  | typeMismatch (text text' : String) : Rewords (.typeMismatch text) (.typeMismatch text')

/-- The errors have causes that differ in words at most, at the same place. -/
structure LangError.Rewords (e e' : LangError) : Prop where
  /-- The causes differ in words at most. -/
  cause : e.cause.Rewords e'.cause
  /-- The place is the same. -/
  span : e'.span = e.span

/-- The reasons for stopping are the same, or errors that differ in words at most. -/
inductive Stop.Rewords : Stop → Stop → Prop
  | refl (stop : Stop) : Rewords stop stop
  | error {e e' : LangError} (h : e.Rewords e') : Rewords (.error e) (.error e')

namespace LangError.Rewords

theorem refl (e : LangError) : e.Rewords e :=
  ⟨.refl _, rfl⟩

theorem placedAt {e e' : LangError} (h : e.Rewords e') (span : Option Span) :
    (e.placedAt span).Rewords (e'.placedAt span) :=
  ⟨h.cause, by rw [LangError.placedAt, LangError.placedAt, h.span]⟩

end LangError.Rewords

/-! ### Checking -/

/-- `expectTy` checks a type alike in places of different names. -/
theorem expectTy_rewords (expected found : Ty) (place place' : String) (span : Option Span) :
    Alongside LangError.Rewords (fun _ _ => True) (expectTy expected found place span)
      (expectTy expected found place' span) := by
  rw [expectTy, expectTy]
  split
  · exact .ok trivial
  · exact .error ⟨.typeMismatch _ _, rfl⟩

/-- `expectArgsFrom` checks arguments one by one alike for callees of different names. -/
theorem expectArgsFrom_rewords (what what' : String) (index : ℕ) (inputs found : List Ty)
    (args : List Expr) :
    Alongside LangError.Rewords (fun _ _ => True) (expectArgsFrom what index inputs found args)
      (expectArgsFrom what' index inputs found args) := by
  induction inputs generalizing index found args with
  | nil => exact .ok trivial
  | cons input inputs ih =>
    cases found with
    | nil => exact .ok trivial
    | cons ty found =>
      cases args with
      | nil => exact .ok trivial
      | cons arg args =>
        rw [expectArgsFrom, expectArgsFrom]
        exact (expectTy_rewords _ _ _ _ _).bind fun _ _ _ => ih (index + 1) found args

/-- `expectArgs` counts and checks arguments alike for callees of different names. -/
theorem expectArgs_rewords (what what' : String) (inputs found : List Ty) (args : List Expr)
    (span : Option Span) :
    Alongside LangError.Rewords (fun _ _ => True) (expectArgs what inputs found args span)
      (expectArgs what' inputs found args span) := by
  rw [expectArgs, expectArgs]
  split
  · exact .error ⟨.arityMismatch _ _ _ _, rfl⟩
  · exact expectArgsFrom_rewords what what' 1 inputs found args

/-- Calling a constructor with fields by its name has the type of building with it, up to
`Ty.agrees`, or fails like it. -/
theorem ConstructorDecl.infer_app {c : ConstructorDecl} {owner : String} {Γ : Context}
    (hc : Γ.registry.constructor? c.name = some ⟨c.name, owner, c.fields⟩) (hfields : c.fields ≠ [])
    (hname : Γ.get? c.name = some (Check.constructorTy owner c)) (args : List Expr)
    (nameSpan span : Option Span) :
    Alongside LangError.Rewords (fun called built => called.agrees built = true)
      (Γ.infer (.app (.var c.name nameSpan) args span))
      (Γ.infer (.construct c.name args span)) := by
  rw [constructorTy_of_ne_nil hfields] at hname
  have hhead : Γ.inferWith Ty.sameTag (.var c.name nameSpan) =
      .ok (.arrow c.fields (.data owner)) :=
    Context.inferWith_var_eq_ok.mpr (.inl hname)
  have hcalled : Γ.infer (.app (.var c.name nameSpan) args span) = located span (do
      let argTys ← Γ.inferAllWith Ty.sameTag args
      expectArgs ("'" ++ c.name ++ "'") c.fields argTys args span
      return .data owner) := by
    rw [Context.infer, Context.inferWith.eq_def]
    simp only [hhead]
    rfl
  have hbuilt : Γ.infer (.construct c.name args span) = located span (do
      let argTys ← Γ.inferAllWith Ty.sameTag args
      expectArgs ("constructor '" ++ c.name ++ "'") c.fields argTys args span
      return .construct c.name argTys owner) := by
    rw [Context.infer, Context.inferWith, hc]
    rfl
  rw [hcalled, hbuilt]
  refine Alongside.mapError ?_ fun e e' (he : e.Rewords e') => he.placedAt span
  -- the arguments are the same, so only what is expected of them is named differently
  refine (Alongside.refl .refl (Γ.inferAllWith Ty.sameTag args)).bind fun tys _ htys => htys ▸ ?_
  refine (expectArgs_rewords _ _ c.fields tys args span).bind fun _ _ _ => .ok ?_
  exact Ty.agrees_iff.mpr rfl

/-! ### Evaluating -/

/-- Running has come to the same result, or has stopped for reasons that differ in words at most,
and has left machines that differ in the record at most. -/
structure Run.SameUpToWords {α : Type} (r r' : Except Stop α × Machine) : Prop where
  /-- The result is the same, or the reasons for stopping differ in words at most. -/
  result : Alongside Stop.Rewords Eq r.1 r'.1
  /-- The machines are the same, apart from the record. -/
  machine : r.2.SameButRecord r'.2

/-- Doing the same at first, from machines that differ in the record, and then what is
`SameUpToWords`, is `SameUpToWords`. -/
theorem Run.Elementary.sameUpToWords_bind {α β : Type} {x : Run α} (hx : x.Elementary)
    {m m' : Machine} (hm : m.SameButRecord m') {f g : α → Run β} {span : Option Span}
    (hfg : ∀ a m₁ m₁', m₁.SameButRecord m₁' → m'.Grows m₁' →
      SameUpToWords (outcome (Run.located span (f a)) m₁) (outcome (Run.located span (g a)) m₁')) :
    SameUpToWords (outcome (Run.located span (x >>= f)) m)
      (outcome (Run.located span (x >>= g)) m') := by
  obtain ⟨hresult, hmachine⟩ := hx.sameEnd hm
  have hgrows : m'.Grows (outcome x m').2 := Run.OnlyAdds.of_takes hx.takes m'
  rcases hfirst : outcome x m with ⟨result, m₁⟩
  rcases hsecond : outcome x m' with ⟨result', m₁'⟩
  rw [hfirst, hsecond] at hresult hmachine
  rw [hsecond] at hgrows
  obtain rfl : result' = result := hresult
  rw [Run.located, Run.located, outcome_adapt, outcome_adapt]
  cases result' with
  | error stop =>
    rw [outcome_bind_of_error hfirst, outcome_bind_of_error hsecond]
    exact ⟨.error (.refl _), hmachine⟩
  | ok a =>
    rw [outcome_bind_of_ok hfirst, outcome_bind_of_ok hsecond]
    exact hfg a m₁ m₁' hmachine hgrows

/-- A scope where `get?` finds something is there. -/
theorem Forest.lt_size_of_get? {α : Type} {f : Forest α} {s : ScopeId} {name : String} {a : α}
    (h : f.get? s name = some a) : s < f.scopes.size := by
  by_contra hs
  rw [Forest.get?, Forest.path, Array.getElem?_eq_none (Nat.le_of_not_lt hs)] at h
  cases h

/-- `app` of a name that means a value calls it with the values of the arguments, once the value has
been found. -/
theorem outcome_evaluate_app_of_get? {m : Machine} {s : ScopeId} {name : String} {f : Value}
    (hname : m.scopes.get? s name = some f) (depth : ℕ) (args : List Expr)
    (nameSpan span : Option Span) :
    outcome (evaluate (depth + 2) s (.app (.var name nameSpan) args span)) m =
      outcome (Run.located span (args.mapM (evaluate (depth + 1) s) >>= fun values =>
          Evaluator.call (evaluate (depth + 1)) f values (.var name nameSpan) span))
        ((m.log (.evaluating (.app (.var name nameSpan) args span))).log
          (.evaluating (.var name nameSpan))) := by
  let event := Event.evaluating (.app (.var name nameSpan) args span)
  have hlog : outcome (Run.log event) m = (.ok ⟨⟩, m.log event) := rfl
  have hhead : outcome (evaluate (depth + 1) s (.var name nameSpan)) (m.log event) =
      (.ok f, (m.log event).log (.evaluating (.var name nameSpan))) :=
    Execute.outcome_evaluate_var_of_get? (m := m.log event) hname depth nameSpan
  rw [evaluate, outcome_bind_of_ok hlog, Run.located, Run.located, outcome_adapt, outcome_adapt,
    Evaluator.step, outcome_bind_of_ok hhead]
  rfl

section Building

variable {c : ConstructorDecl} {owner : String} {m m' : Machine} {s : ScopeId}

/-- With the values of the arguments at hand, `Evaluator.call` of a constructor is placed where
building is, and counts the same. -/
theorem ConstructorDecl.sameUpToWords_call (hm : m.SameButRecord m')
    (hc : (m'.scopes.registry s).constructor? c.name = some ⟨c.name, owner, c.fields⟩)
    (recur : Evaluator) (values : List Value) (head : Expr) (span : Option Span) :
    Run.SameUpToWords
      (outcome (Run.located span
        (Evaluator.call recur (Execute.constructorValue c) values head span)) m)
      (outcome (Run.located span (Evaluator.construct s c.name values span)) m') := by
  have hregistry : outcome (Run.withScopes (·.registry s)) m' = (.ok (m'.scopes.registry s), m') :=
    rfl
  rw [Run.located, Run.located, outcome_adapt, outcome_adapt, Evaluator.construct,
    outcome_bind_of_ok hregistry, hc]
  by_cases hlength : values.length = c.fields.length
  · rw [Execute.constructorValue, Evaluator.outcome_call_constructor c.name hlength]
    simp only [ConstructorInfo.arity, hlength, ne_eq, not_true, if_false, outcome_pure]
    exact ⟨.ok rfl, hm⟩
  · have hcount : checkCount ("'" ++ c.name ++ "'") c.fields.length values =
        .error ⟨.arityMismatch ("'" ++ c.name ++ "'") c.fields.length values.length, none⟩ := by
      rw [checkCount, if_neg (by exact_mod_cast hlength)]
      rfl
    simp only [ConstructorInfo.arity, ne_eq, hlength, not_false_iff, if_true]
    rw [Execute.constructorValue, Evaluator.call, hcount]
    refine ⟨.error (.error ⟨.arityMismatch _ _ _ _, ?_⟩), hm⟩
    cases span <;> rfl

/-- Evaluating an `app` of a constructor by its name comes to the value of the `construct`, or fails
like it. -/
theorem ConstructorDecl.sameUpToWords_evaluate
    (hc : (m.scopes.registry s).constructor? c.name = some ⟨c.name, owner, c.fields⟩)
    (hname : m.scopes.get? s c.name = some (Execute.constructorValue c)) (depth : ℕ)
    (args : List Expr) (nameSpan span : Option Span) :
    Run.SameUpToWords
      (outcome (evaluate (depth + 2) s (.app (.var c.name nameSpan) args span)) m)
      (outcome (evaluate (depth + 2) s (.construct c.name args span)) m) := by
  have hbuilt : outcome (evaluate (depth + 2) s (.construct c.name args span)) m =
      outcome (Run.located span (args.mapM (evaluate (depth + 1) s) >>= fun fields =>
        Evaluator.construct s c.name fields span))
        (m.log (.evaluating (.construct c.name args span))) :=
    rfl
  have hargs : (args.mapM (evaluate (depth + 1) s)).Elementary :=
    .mapM (elementary_evaluate (depth + 1) s) args
  have hlogs : ((m.log (.evaluating (.app (.var c.name nameSpan) args span))).log
      (.evaluating (.var c.name nameSpan))).SameButRecord
        (m.log (.evaluating (.construct c.name args span))) :=
    ⟨rfl, rfl⟩
  rw [outcome_evaluate_app_of_get? hname, hbuilt]
  refine hargs.sameUpToWords_bind hlogs fun values m₁ m₁' hsame hgrows => ?_
  -- evaluating the arguments has declared nothing
  have hregistry : m₁'.scopes.registry s = m.scopes.registry s :=
    hgrows.registry_eq (Forest.lt_size_of_get? hname)
  rw [← hregistry] at hc
  exact sameUpToWords_call hsame hc (evaluate (depth + 1)) values (.var c.name nameSpan) span

end Building

/-- Calling a declared constructor by its name is building with it, whatever `args` are. Where the
name means its declared type and there are fields, both have types that agree, or errors at the same
place that differ in words at most (`LangError.Rewords`). Where the name means its declared value,
both come to the same value, or stop for reasons that differ in words at most, and the machines they
leave differ in the record at most (`Run.SameUpToWords`). A call nests one deeper than building, for
its name. -/
theorem ConstructorDecl.called_as_built (c : ConstructorDecl) (owner : String) (args : List Expr)
    (nameSpan span : Option Span) :
    (∀ Γ : Context, Γ.registry.constructor? c.name = some ⟨c.name, owner, c.fields⟩ →
      c.fields ≠ [] → Γ.get? c.name = some (Check.constructorTy owner c) →
      Alongside LangError.Rewords (fun called built => called.agrees built = true)
        (Γ.infer (.app (.var c.name nameSpan) args span))
        (Γ.infer (.construct c.name args span))) ∧
    ∀ (m : Machine) (s : ScopeId),
      (m.scopes.registry s).constructor? c.name = some ⟨c.name, owner, c.fields⟩ →
      m.scopes.get? s c.name = some (Execute.constructorValue c) → ∀ depth : ℕ,
      Run.SameUpToWords
        (outcome (evaluate (depth + 2) s (.app (.var c.name nameSpan) args span)) m)
        (outcome (evaluate (depth + 2) s (.construct c.name args span)) m) :=
  ⟨fun _ hc hfields hname => infer_app hc hfields hname args nameSpan span,
    fun _ _ hc hname depth => sameUpToWords_evaluate hc hname depth args nameSpan span⟩

/-- Lists of numbers, with a constructor that has fields. -/
private def numberLists : Stmt :=
  .data "List" [⟨"Nil", [], none⟩, ⟨"Cons", [.nat, .data "List"], none⟩] none

/-- What names mean to the checker after the declaration. -/
private def listContext : Context :=
  (outcome (Check.stmt numberLists) (Session.start true).context).2

/-- The machine after the declaration. -/
private def listMachine : Machine :=
  (outcome (Execute.stmt 0 Machine.root numberLists) (Session.start true).machine).2

/-- `(Cons 1)` without its tail is the same error, whether it is called for or built. -/
theorem ConstructorDecl.called_as_built_withoutTail :
    Alongside LangError.Rewords (fun called built => called.agrees built = true)
      (listContext.infer (.app (.var "Cons" none) [.number 1 none] none))
      (listContext.infer (.construct "Cons" [.number 1 none] none)) ∧
    Run.SameUpToWords
      (outcome (evaluate 2 Machine.root (.app (.var "Cons" none) [.number 1 none] none))
        listMachine)
      (outcome (evaluate 2 Machine.root (.construct "Cons" [.number 1 none] none))
        listMachine) := by
  obtain ⟨htypes, hvalues⟩ :=
    called_as_built ⟨"Cons", [.nat, .data "List"], none⟩ "List" [.number 1 none] none none
  exact ⟨htypes listContext (by decide +kernel) (by simp) rfl,
    hvalues listMachine Machine.root (by decide +kernel) rfl 0⟩

end Casewise
