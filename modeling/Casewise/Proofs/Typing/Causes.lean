import Casewise.Proofs.Reading.WellFormed
import Casewise.Proofs.Typing.Kinds

/-!
# What checking comes to

Inference has a type as its result or fails. In a context of a closed kind of types, for an
expression that gives types of the kind to its parameters, the type is of the kind, and there are
few causes for which it fails: a name is not bound, is bound twice or cannot be assigned to,
something has a wrong number of parts, or a type of the kind stands where one is needed that it is
not.

One walk over expressions shows both. Checking a statement then leaves a context of the kind and
fails for no other causes.

## Main definitions

* `EndsIn`: what the results and the errors of a computation are like.
* `Cause.OfChecking`: the causes for which checking fails.
* `Expr.annotations`, `Stmt.annotations`, `Stmt.declaredTys`: the types that expressions and
  statements bring in.

## Main statements

* `Context.OfKind.inferWith_endsIn`: what inference comes to.
* `Context.OfKind.of_checks`: a statement that checks leaves a context of the kind.
* `Context.OfKind.stmtWith_failsOnly`: why checking a statement fails.
-/

namespace Casewise

/-! ### Results and causes -/

/-- A result of the computation is of the kind `P`, and if it fails, then for one of the causes
`C`. -/
structure EndsIn {α : Type} (C : Cause → Prop) (P : α → Prop) (x : Except LangError α) : Prop where
  /-- The result. -/
  result : ∀ {a}, x = .ok a → P a
  /-- The cause of a failure. -/
  fails : FailsOnly (fun e => C e.cause) x

namespace EndsIn

variable {α β : Type} {C C' : Cause → Prop} {P : α → Prop} {Q : β → Prop} {x : Except LangError α}

theorem ok {a : α} (ha : P a) : EndsIn C P (.ok a) :=
  ⟨fun h => by cases h; exact ha, .ok a⟩

theorem throw {e : LangError} (h : C e.cause) : EndsIn C P (throw e) :=
  ⟨nofun, .throw h⟩

theorem bind (hx : EndsIn C P x) {f : α → Except LangError β} (hf : ∀ a, P a → EndsIn C Q (f a)) :
    EndsIn C Q (x >>= f) where
  result h := by
    obtain ⟨a, ha, h⟩ := bind_eq_ok.mp h
    exact (hf a (hx.result ha)).result h
  fails := .bind hx.fails fun a ha => (hf a (hx.result ha)).fails

theorem located (h : EndsIn C P x) (span : Option Span) : EndsIn C P (located span x) :=
  ⟨fun hx => h.result (located_eq_ok.mp hx), h.fails.mapError fun _ he => he⟩

theorem imp (h : EndsIn C P x) (hC : ∀ c, C c → C' c) : EndsIn C' P x :=
  ⟨h.result, fun e he => hC _ (h.fails e he)⟩

end EndsIn

/-- The causes for which checking names fails. -/
inductive Cause.OfNames : Cause → Prop
  /-- A name is not bound, or a data type or a constructor is not declared. -/
  | unboundName (name : String) : OfNames (.unboundName name)
  /-- A name is bound already, or a data type or a constructor is declared already. -/
  | redefinition (name : String) : OfNames (.redefinition name)

/-- The causes for which checking fails in a context of types of the kind `K`, if `es` are all the
expressions that are checked, and `agree` tells which types the branches of a conditional may
have. -/
inductive Cause.OfChecking (K : Ty → Prop) (agree : Ty → Ty → Bool) (es : List Expr) : Cause → Prop
  | names {c : Cause} (h : c.OfNames) : OfChecking K agree es c
  | target (text : String) : OfChecking K agree es (.invalidAssignTarget text)
  /-- A callee or a pattern has a wrong number of parts. -/
  | arguments {what : String} (hwhat : what ≠ "match") (expected got : Int) :
    OfChecking K agree es (.arityMismatch what expected got)
  /-- A match has not as many patterns as branches. -/
  | arms {scrutinee : Expr} {patterns : List Pattern} {branches : List Expr} {span : Option Span}
    (hmem : .cases scrutinee patterns branches span ∈ es)
    (hlength : patterns.length ≠ branches.length) :
    OfChecking K agree es (.arityMismatch "match" patterns.length branches.length)
  /-- A type does not agree with the one that is expected. -/
  | expected {expected found : Ty} (hexpected : K expected) (hfound : K found)
    (h : expected.agrees found = false) (place : String) (span : Option Span) :
    OfChecking K agree es (mismatch expected.text found place span).cause
  /-- The branches of a conditional may not have these types. -/
  | branches {thenTy elseTy : Ty} (hthen : K thenTy) (helse : K elseTy)
    (h : agree thenTy elseTy = false) (span : Option Span) :
    OfChecking K agree es (mismatch thenTy.text elseTy "'if' else branch" span).cause
  | function {found : Ty} (hfound : K found) (h : ∀ inputs output, found ≠ .arrow inputs output)
    (span : Option Span) :
    OfChecking K agree es (mismatch "a function" found "application head" span).cause
  | pair {found : Ty} (hfound : K found) (h : ∀ first second, found ≠ .pair first second)
    (place : String) (span : Option Span) :
    OfChecking K agree es (mismatch "a pair" found place span).cause
  /-- A pattern fits no value of the type of the scrutinee. -/
  | pattern (p : Pattern) {subject : Ty} (hsubject : K subject) :
    OfChecking K agree es
      (.typeMismatch ("pattern '" ++ p.text ++ "' cannot match a value of type " ++ subject.text))
  | noBranches : OfChecking K agree es (.typeMismatch "match has no branches")

/-! ### Types that are written -/

/-- The types that an expression and the expressions in it give to parameters. -/
def Expr.annotations (e : Expr) : List Ty :=
  e.parts.flatMap Expr.paramTys

theorem Expr.mem_parts_self (e : Expr) : e ∈ e.parts := by
  rw [parts_eq]
  exact List.mem_cons_self

theorem Expr.parts_subset_of_mem_children {e c : Expr} (hc : c ∈ e.children) :
    c.parts ⊆ e.parts := by
  have hparts : ∀ x ∈ partsAll e.children, x ∈ e.parts := by
    rw [parts_eq]
    exact fun x hx => List.mem_cons_of_mem e hx
  exact forall_mem_partsAll.mp hparts c hc

theorem Expr.annotations_subset_of_mem_children {e c : Expr} (hc : c ∈ e.children) :
    c.annotations ⊆ e.annotations := by
  intro ty hty
  obtain ⟨part, hpart, hty⟩ := List.mem_flatMap.mp hty
  exact List.mem_flatMap.mpr ⟨part, Expr.parts_subset_of_mem_children hc hpart, hty⟩

theorem Expr.mem_annotations_lambda (param : String) (paramTy : Ty) (body : Expr)
    (span : Option Span) : paramTy ∈ (Expr.lambda param paramTy body span).annotations := by
  simp [annotations, parts, paramTys]

/-- The types that a definition gives to parameters. -/
def Stmt.annotations : Stmt → List Ty
  | .define _ value _ => value.annotations
  | _ => []

/-- The data type that a statement declares, and the types of the fields of its constructors. -/
def Stmt.declaredTys : Stmt → List Ty
  | .data name constructors _ => .data name :: constructors.flatMap ConstructorDecl.fields
  | _ => []

theorem ne_match {what : String} (h : what.toList.head? ≠ some 'm') : what ≠ "match" := by
  rintro rfl
  exact h rfl

namespace Cause.OfChecking

variable {K : Ty → Prop} {agree : Ty → Ty → Bool} {es es' : List Expr} {c : Cause}

theorem mono (h : c.OfChecking K agree es) (hes : es ⊆ es') : c.OfChecking K agree es' := by
  cases h with
  | names h => exact .names h
  | target text => exact .target text
  | arguments hwhat expected got => exact .arguments hwhat expected got
  | arms hmem hlength => exact .arms (hes hmem) hlength
  | expected hexpected hfound h place span => exact .expected hexpected hfound h place span
  | branches hthen helse h span => exact .branches hthen helse h span
  | function hfound h span => exact .function hfound h span
  | pair hfound h place span => exact .pair hfound h place span
  | pattern p hsubject => exact .pattern p hsubject
  | noBranches => exact .noBranches

/-- The causes `OfMatching` are causes of checking. -/
theorem of_ofMatching {R : Registry} (h : c.OfMatching R) : c.OfChecking K agree es := by
  cases h with
  | unboundName name => exact .names (.unboundName name)
  | redefinition name => exact .names (.redefinition name)
  | arityMismatch hinfo hgot => exact .arguments (ne_match (by simp)) _ _

end Cause.OfChecking

/-! ### Expressions -/

section Arguments

variable {K : Ty → Prop} {agree : Ty → Ty → Bool} {es : List Expr}

/-- `expectTy` fails for a cause of checking. -/
theorem expectTy_endsIn {expected found : Ty} (hexpected : K expected) (hfound : K found)
    (place : String) (span : Option Span) :
    EndsIn (Cause.OfChecking K agree es) (fun _ => True) (expectTy expected found place span) := by
  rw [expectTy]
  split
  · exact .ok trivial
  · next hagree => exact .throw (.expected hexpected hfound (Bool.eq_false_iff.mpr hagree) _ _)

/-- `expectArgsFrom` fails for a cause of checking. -/
theorem expectArgsFrom_endsIn (what : String) (index : Nat) {inputs found : List Ty}
    (hinputs : ∀ ty ∈ inputs, K ty) (hfound : ∀ ty ∈ found, K ty) (args : List Expr) :
    EndsIn (Cause.OfChecking K agree es) (fun _ => True)
      (expectArgsFrom what index inputs found args) := by
  induction inputs generalizing index found args with
  | nil => exact .ok trivial
  | cons input inputs ih =>
    obtain ⟨hinput, hinputs⟩ := List.forall_mem_cons.mp hinputs
    cases found with
    | nil => exact .ok trivial
    | cons ty tys =>
      obtain ⟨hty, htys⟩ := List.forall_mem_cons.mp hfound
      cases args with
      | nil => exact .ok trivial
      | cons arg args =>
        rw [expectArgsFrom]
        exact .bind (expectTy_endsIn hinput hty _ _) fun _ _ => ih _ hinputs htys _

/-- `expectArgs` of something that is not a match fails for a cause of checking. -/
theorem expectArgs_endsIn {what : String} (hwhat : what ≠ "match") {inputs found : List Ty}
    (hinputs : ∀ ty ∈ inputs, K ty) (hfound : ∀ ty ∈ found, K ty) (args : List Expr)
    (span : Option Span) :
    EndsIn (Cause.OfChecking K agree es) (fun _ => True)
      (expectArgs what inputs found args span) := by
  rw [expectArgs]
  split
  · exact .throw (.arguments hwhat _ _)
  · exact expectArgsFrom_endsIn what 1 hinputs hfound args

end Arguments

namespace Context

variable {K : Ty → Prop} {Γ : Context} {agree : Ty → Ty → Bool} {es : List Expr}

/-- `inferAllWith` comes to types of the kind one by one if each expression does. -/
theorem inferAllWith_endsIn {C : Cause → Prop} {args : List Expr}
    (h : ∀ e ∈ args, EndsIn C K (Γ.inferWith agree e)) :
    EndsIn C (fun tys => ∀ ty ∈ tys, K ty) (Γ.inferAllWith agree args) := by
  induction args with
  | nil => exact .ok fun _ hty => nomatch hty
  | cons e args ih =>
    obtain ⟨he, hargs⟩ := List.forall_mem_cons.mp h
    rw [inferAllWith]
    exact .bind he fun _ hty => .bind (ih hargs) fun _ htys =>
      .ok (List.forall_mem_cons.mpr ⟨hty, htys⟩)

namespace OfKind

/-- `inferArmsWith` comes to a type of the kind if each branch does. -/
theorem inferArmsWith_endsIn (hK : Ty.ClosedKind K) (h : Γ.OfKind K) {subject : Ty}
    (hsubject : K subject) {branches : List Expr}
    (hbranches : ∀ e ∈ branches, ∀ {Γ : Context}, Γ.OfKind K →
      EndsIn (Cause.OfChecking K agree es) K (Γ.inferWith agree e))
    (ps : List Pattern) {result : Option Ty} (hresult : ∀ ty ∈ result, K ty) :
    EndsIn (Cause.OfChecking K agree es) (fun found => ∀ ty ∈ found, K ty)
      (Γ.inferArmsWith agree subject result ps branches) := by
  induction ps generalizing result branches with
  | nil =>
    have hend : Γ.inferArmsWith agree subject result [] branches = .ok result := by
      simp [inferArmsWith]
    rw [hend]
    exact .ok hresult
  | cons p ps ih =>
    cases branches with
    | nil => exact .ok hresult
    | cons branch branches =>
      obtain ⟨hbranch, hbranches⟩ := List.forall_mem_cons.mp hbranches
      obtain ⟨hbound, hfails⟩ := Pattern.bindings?_closed (h.subject_closed hK) p hsubject
      have hmatching : EndsIn (Cause.OfChecking K agree es)
          (fun found => ∀ bound ∈ found, bound.All K) (p.bindings? Γ.registry subject) :=
        ⟨fun hfound bound hmem => hbound bound (by rw [hfound, Option.mem_def.mp hmem]),
          fun e he => .of_ofMatching (hfails e he)⟩
      rw [inferArmsWith]
      refine .bind hmatching fun found hfound => ?_
      cases found with
      | none => exact .throw (.pattern p hsubject)
      | some bound =>
        refine .bind (hbranch (h.extend (hfound bound rfl))) fun ty hty => ?_
        cases result with
        | none => exact ih hbranches fun ty' hmem => by cases hmem; exact hty
        | some first =>
          have hfirst := hresult first rfl
          exact .bind (expectTy_endsIn hfirst hty _ _) fun _ _ => ih hbranches hresult

/-- `inferWith` comes to a type of the kind `K`, if the annotations are, or fails for one of the
causes of checking. -/
theorem inferWith_endsIn (hK : Ty.ClosedKind K) {e : Expr} (h : Γ.OfKind K)
    (he : ∀ ty ∈ e.annotations, K ty) :
    EndsIn (Cause.OfChecking K agree e.parts) K (Γ.inferWith agree e) := by
  -- the branches of a match and the body of a function are checked in other contexts of the kind
  induction e using Expr.children_induction generalizing Γ with
  | h e ih =>
    have hchild : ∀ c ∈ e.children, ∀ {Γ : Context}, Γ.OfKind K →
        EndsIn (Cause.OfChecking K agree e.parts) K (Γ.inferWith agree c) := fun c hc {_} hΓ =>
      (ih c hc hΓ fun ty hty => he ty (Expr.annotations_subset_of_mem_children hc hty)).imp
        fun _ hcause => hcause.mono (Expr.parts_subset_of_mem_children hc)
    cases e with
    | number value span =>
      rw [inferWith]
      exact .located (.ok hK.nat) _
    | boolean value span =>
      rw [inferWith]
      exact .located (.ok hK.bool) _
    | var name span =>
      rw [inferWith]
      refine .located ?_ _
      split
      · next hname => exact .ok (h.get? hname)
      · split
        · exact .ok hK.str
        · exact .throw (.names (.unboundName name))
    | not operand span =>
      rw [inferWith]
      exact .located (.bind (hchild operand (by simp [Expr.children]) h) fun _ hty =>
        .bind (expectTy_endsIn hK.bool hty _ _) fun _ _ => .ok hK.bool) _
    | binary op left right span =>
      rw [inferWith]
      refine .located (.bind (hchild left (by simp [Expr.children]) h) fun _ hleft =>
        .bind (hchild right (by simp [Expr.children]) h) fun _ hright => ?_) _
      exact .bind (expectTy_endsIn (hK.operand op) hleft _ _) fun _ _ =>
        .bind (expectTy_endsIn (hK.operand op) hright _ _) fun _ _ => .ok (hK.operand op)
    | cond condition thenBranch elseBranch span =>
      rw [inferWith]
      refine .located (.bind (hchild condition (by simp [Expr.children]) h) fun _ hcondition =>
        .bind (hchild thenBranch (by simp [Expr.children]) h) fun _ hthen =>
        .bind (hchild elseBranch (by simp [Expr.children]) h) fun _ helse =>
        .bind (expectTy_endsIn hK.bool hcondition _ _) fun _ _ => ?_) _
      split
      · exact .ok helse
      · next hagree => exact .throw (.branches hthen helse (Bool.eq_false_iff.mpr hagree) _)
    | lambda param paramTy body span =>
      have hparam : K paramTy := he paramTy (Expr.mem_annotations_lambda ..)
      rw [inferWith]
      refine .located (.bind (hchild body (by simp [Expr.children]) (h.extend_param hparam param))
        fun bodyTy hbody => .ok ?_) _
      exact hK.arrow_iff.mpr ⟨List.forall_mem_singleton.mpr hparam, hbody⟩
    | app head args span =>
      have hargs : ∀ e ∈ args, _ := fun e he => hchild e (List.mem_cons_of_mem _ he) h
      rw [inferWith]
      refine .located (.bind (hchild head (by simp [Expr.children]) h) fun headTy hhead =>
        .bind (inferAllWith_endsIn hargs) fun argTys hargTys => ?_) _
      split
      · obtain ⟨hinputs, houtput⟩ := hK.arrow_iff.mp hhead
        have hwhat : "'" ++ head.text ++ "'" ≠ "match" := ne_match (by simp)
        exact .bind (expectArgs_endsIn hwhat hinputs hargTys _ _) fun _ _ => .ok houtput
      · next hfunction => exact .throw (.function hhead hfunction _)
    | pair first second span =>
      rw [inferWith]
      exact .located (.bind (hchild first (by simp [Expr.children]) h) fun _ hfirst =>
        .bind (hchild second (by simp [Expr.children]) h) fun _ hsecond =>
          .ok (hK.pair_iff.mpr ⟨hfirst, hsecond⟩)) _
    | fst operand span =>
      rw [inferWith]
      refine .located (.bind (hchild operand (by simp [Expr.children]) h) fun ty hty => ?_) _
      split
      · exact .ok (hK.pair_iff.mp hty).1
      · next hpair => exact .throw (.pair hty hpair _ _)
    | snd operand span =>
      rw [inferWith]
      refine .located (.bind (hchild operand (by simp [Expr.children]) h) fun ty hty => ?_) _
      split
      · exact .ok (hK.pair_iff.mp hty).2
      · next hpair => exact .throw (.pair hty hpair _ _)
    | construct name args span =>
      rw [inferWith]
      refine .located ?_ _
      split
      · exact .throw (.names (.unboundName name))
      · next info hinfo =>
        have hwhat : "constructor '" ++ name ++ "'" ≠ "match" := ne_match (by simp)
        refine .bind (inferAllWith_endsIn fun e he => hchild e he h) fun argTys hargTys => ?_
        exact .bind (expectArgs_endsIn hwhat (h.fields hinfo) hargTys _ _) fun _ _ =>
          .ok (hK.construct (h.data hinfo) hargTys)
    | cases scrutinee patterns branches span =>
      rw [inferWith]
      refine .located (.bind (hchild scrutinee (by simp [Expr.children]) h)
        fun subject hsubject => ?_) _
      split
      · next hlength => exact .throw (.arms (Expr.mem_parts_self _) hlength)
      · have hbranches : ∀ e ∈ branches, ∀ {Γ : Context}, Γ.OfKind K → EndsIn _ K _ :=
          fun e he {_} hΓ => hchild e (List.mem_cons_of_mem _ he) hΓ
        have hnone : ∀ ty ∈ (none : Option Ty), K ty := by simp
        refine .bind (h.inferArmsWith_endsIn hK hsubject hbranches patterns hnone)
          fun found hfound => ?_
        split
        · exact .ok (hfound _ rfl)
        · exact .throw .noBranches

end OfKind

end Context

/-! ### Names -/

namespace Check

theorem stopsOnly_withContext {E : LangError → Prop} {α : Type} {f : Context → Except LangError α}
    (h : ∀ Γ, FailsOnly E (f Γ)) : StopsOnly E (withContext f) :=
  fun Γ => h Γ

theorem stopsOnly_update {E : LangError → Prop} {f : Context → Except LangError Context}
    (h : ∀ Γ, FailsOnly E (f Γ)) : StopsOnly E (update f) :=
  .bind (stopsOnly_withContext h) fun _ _ => .ok _

/-- `set` stops for names only. -/
theorem stopsOnly_set (name : String) (ty : Ty) :
    StopsOnly (·.cause.OfNames) (update (·.set name ty)) := by
  refine stopsOnly_update fun Γ => ?_
  rw [Chain.set]
  split
  · exact .throw (.redefinition name)
  · exact .ok _

/-- `allDeclared` fails for names only if each look for a data type does. -/
theorem failsOnly_allDeclared {own : String} {span : Option Span} {R : Registry} {tys : List Ty}
    (h : ∀ ty ∈ tys, FailsOnly (·.cause.OfNames) (declared own span R ty)) :
    FailsOnly (·.cause.OfNames) (allDeclared own span R tys) := by
  induction tys with
  | nil =>
    rw [allDeclared]
    exact .ok _
  | cons ty tys ih =>
    obtain ⟨hty, htys⟩ := List.forall_mem_cons.mp h
    rw [allDeclared]
    exact .bind hty fun _ _ => ih htys

/-- `declared`, the look for the data types of a type, fails for names only. -/
theorem failsOnly_declared (own : String) (span : Option Span) (R : Registry) (ty : Ty) :
    FailsOnly (·.cause.OfNames) (declared own span R ty) := by
  induction ty with
  | prim name =>
    rw [declared]
    exact .ok _
  | construct name args owner =>
    rw [declared]
    exact .ok _
  | data name =>
    rw [declared]
    split
    · exact .ok _
    · exact .throw (.unboundName name)
  | arrow inputs output ihInputs ihOutput =>
    rw [declared]
    exact .bind (failsOnly_allDeclared ihInputs) fun _ _ => ihOutput
  | pair first second ihFirst ihSecond =>
    rw [declared]
    exact .bind ihFirst fun _ _ => ihSecond

/-- `Check.constructor` fails for names only. -/
theorem failsOnly_constructor (own : String) (Γ : Context) (c : ConstructorDecl) :
    FailsOnly (·.cause.OfNames) (constructor own Γ c) := by
  have hfields : FailsOnly (·.cause.OfNames) (allDeclared own c.span Γ.registry c.fields) :=
    failsOnly_allDeclared fun ty _ => failsOnly_declared own c.span Γ.registry ty
  rw [constructor]
  split
  · exact .throw (.redefinition c.name)
  · exact hfields

/-- `Chain.declare` stops for names only. -/
theorem stopsOnly_declare (name : String) (constructors : List (String × List Ty)) :
    StopsOnly (·.cause.OfNames) (Chain.declare name constructors : Check Unit) := by
  intro Γ e he
  rcases hout : outcome (Chain.declare name constructors : Check Unit) Γ with ⟨r, Γ'⟩
  rw [hout] at he
  cases he
  obtain ⟨R, hR, -⟩ := Chain.outcome_declare_eq.mp hout
  obtain ⟨⟨clash, rfl⟩, -⟩ := Registry.declare_eq_error hR
  exact .redefinition clash

/-- `Check.data` stops for names only. -/
theorem stopsOnly_data (name : String) (constructors : List ConstructorDecl) (span : Option Span) :
    StopsOnly (·.cause.OfNames) (data name constructors span) := by
  have hnew (Γ : Context) : FailsOnly (·.cause.OfNames)
      (if (Γ.registry.data? name).isSome then throw ⟨.redefinition name, span⟩
        else constructors.forM (constructor name Γ)) := by
    split
    · exact .throw (.redefinition name)
    · exact .forM fun c _ => failsOnly_constructor name Γ c
  have hset (c : ConstructorDecl) :
      StopsOnly (·.cause.OfNames) (update (·.set c.name (constructorTy name c))) :=
    stopsOnly_set c.name (constructorTy name c)
  rw [data]
  refine .bind (stopsOnly_withContext hnew) fun _ => ?_
  refine .bind (stopsOnly_declare name _) fun _ => ?_
  exact .forM hset constructors

end Check

/-! ### Statements -/

namespace Context.OfKind

variable {K : Ty → Prop} {Γ Γ' : Context} {agree : Ty → Ty → Bool} {st : Stmt}

/-- A statement that `Checks` leaves a context of the kind, if the types that it brings in are. -/
theorem of_checks (hK : Ty.ClosedKind K) (h : Γ.OfKind K) (hchecks : st.Checks agree Γ Γ')
    (hannotations : ∀ ty ∈ st.annotations, K ty) (hdeclared : ∀ ty ∈ st.declaredTys, K ty) :
    Γ'.OfKind K := by
  cases hchecks with
  | define hvalue hname => exact h.insert ((h.inferWith_endsIn hK hannotations).result hvalue) _
  | assign => exact h
  | print => exact h
  | data hnew hfields hdeclare =>
    obtain ⟨hown, hfields⟩ := List.forall_mem_cons.mp hdeclared
    refine h.declare hK hown (fun c hc ty hty => ?_) hdeclare
    exact hfields ty (List.mem_flatMap.mpr ⟨c, hc, hty⟩)

/-- `stmtWith` fails for one of the causes of checking (`Cause.OfChecking`), if the types that the
statement gives to parameters are of the kind. -/
theorem stmtWith_failsOnly (hK : Ty.ClosedKind K) (h : Γ.OfKind K)
    (hst : ∀ e ∈ st.exprs, ∀ ty ∈ e.annotations, K ty) :
    FailsOnly (·.cause.OfChecking K agree st.parts) (outcome (Check.stmtWith agree st) Γ).1 := by
  have hexpr : ∀ e ∈ st.exprs,
      FailsOnly (·.cause.OfChecking K agree st.parts) (Γ.inferWith agree e) := fun e he =>
    ((h.inferWith_endsIn hK (hst e he)).imp fun _ hcause => hcause.mono
      (Expr.forall_mem_partsAll.mp (fun _ hx => hx) e he)).fails
  have hnames : ∀ {x : Check Unit}, StopsOnly (·.cause.OfNames) x →
      StopsOnly (·.cause.OfChecking K agree st.parts) x := fun hx Γ e he => .names (hx Γ e he)
  rw [Check.stmtWith.eq_def, outcome_adapt]
  refine FailsOnly.mapError ?_ fun e he => he
  -- what comes after the expression of a statement fails for names only
  cases st with
  | define name value span =>
    exact StopsOnly.failsOnly_outcome_bind (hexpr value (by simp [Stmt.exprs])) fun ty =>
      hnames (Check.stopsOnly_set name ty)
  | assign target value span =>
    change FailsOnly _ (Check.assign agree target value span Γ)
    rw [Check.assign.eq_def]
    split
    · next name nameSpan =>
      refine .bind (hexpr value (by simp [Stmt.exprs])) fun valueTy hvalue => ?_
      have hvalue : K valueTy :=
        (h.inferWith_endsIn hK (hst value (by simp [Stmt.exprs]))).result hvalue
      rw [Chain.get]
      split
      · next targetTy hname => exact (expectTy_endsIn (h.get? hname) hvalue _ _).fails
      · exact .throw (.names (.unboundName name))
    · exact .throw (.target _)
  | print value span =>
    exact StopsOnly.failsOnly_outcome_bind (hexpr value (by simp [Stmt.exprs])) fun _ => .pure _
  | data name constructors span => exact hnames (Check.stopsOnly_data name constructors span) Γ

end Context.OfKind

end Casewise
