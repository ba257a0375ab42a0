import Casewise.Proofs.Pattern.Fit
import Casewise.Proofs.Reading.Readable
import Casewise.Proofs.Typing.Infer

/-!
# Typing rules

The types of expressions as a system of rules, over a function that tells what names mean instead of
a stack of levels. An expression that has been read has a type by the rules exactly if inference
finds it; the name of a constructor without fields, which never reads as a name, may mean anything
to the rules. Unlike inference, the rules can be followed backwards, and they say at a glance that a
type stays when more is declared.

## Main definitions

* `Names`: what names mean at some place.
* `Expr.HasTy`: the typing rules.

## Main statements

* `Expr.inferWith_eq_ok_iff`: inference finds the types that the rules give.
* `Expr.HasTy.mono`: a type stays when more is accepted, declared and bound.
-/

namespace Casewise

/-- A name means inside a new level what it is bound to there, or else what `get?` finds around
it. -/
theorem Chain.get?_extend {α : Type} (c : Chain α) (bound : Table α) (name : String) :
    (c.extend bound).get? name = (bound.get? name).or (c.get? name) := by
  change (bound :: c.levels).findSome? (·.get? name) = _
  rw [List.findSome?_cons]
  cases bound.get? name <;> rfl

theorem Chain.get?_of_outer_eq {α : Type} {c : Chain α} (h : c.outer = []) (name : String) :
    c.get? name = c.here.get? name := by
  rw [Chain.get?, Chain.levels, h, List.findSome?_singleton]

/-- What names mean at some place: their types. -/
abbrev Names :=
  String → Option Ty

namespace Names

/-- The meaning of names inside a new level with the given bindings. -/
def extend (look : Names) (bound : Table Ty) : Names :=
  fun name => (bound.get? name).or (look name)

/-- Names keep their meaning: what is bound stays bound to the same type, and a quoted name that is
not bound stays so. -/
def Keeps (look look' : Names) : Prop :=
  ∀ name, (∀ ty, look name = some ty → look' name = some ty) ∧
    (Text.isQuoted name = true → look name = none → look' name = none)

/-- Names keep their meaning inside a new level if they do around it: `Keeps` passes through
`extend`. -/
theorem Keeps.extend {look look' : Names} (h : look.Keeps look') (bound : Table Ty) :
    (look.extend bound).Keeps (look'.extend bound) := by
  intro name
  simp only [Names.extend]
  cases bound.get? name with
  | some ty => exact ⟨fun _ h => h, fun _ h => h⟩
  | none => exact h name

end Names

namespace Expr

mutual

/-- The expression has the type by the typing rules, where `agree` tells which types the branches of
a choice may have, `R` knows the constructors and `look` what names mean. -/
inductive HasTy (agree : Ty → Ty → Bool) (R : Registry) : Names → Expr → Ty → Prop
  | var {look : Names} {name : String} {span : Option Span} {ty : Ty} (h : look name = some ty) :
    HasTy agree R look (.var name span) ty
  | quoted {look : Names} {name : String} {span : Option Span} (h : look name = none)
    (hquoted : Text.isQuoted name = true) : HasTy agree R look (.var name span) .str
  | number {look : Names} (value : Int) (span : Option Span) :
    HasTy agree R look (.number value span) .nat
  | boolean {look : Names} (value : Bool) (span : Option Span) :
    HasTy agree R look (.boolean value span) .bool
  | not {look : Names} {operand : Expr} {span : Option Span} {ty : Ty}
    (h : HasTy agree R look operand ty) (hty : Ty.bool.agrees ty = true) :
    HasTy agree R look (.not operand span) .bool
  /-- A binary operator that the language knows. -/
  | binary {look : Names} {op : BinaryOp} {left right : Expr} {span : Option Span} {a b : Ty}
    (hop : BinaryOp.ofSymbol? op.symbol = some op) (hleft : HasTy agree R look left a)
    (hright : HasTy agree R look right b) (ha : op.operand.agrees a = true)
    (hb : op.operand.agrees b = true) : HasTy agree R look (.binary op left right span) op.operand
  | cond {look : Names} {condition thenBranch elseBranch : Expr} {span : Option Span} {a b ty : Ty}
    (hcondition : HasTy agree R look condition a) (hthen : HasTy agree R look thenBranch b)
    (helse : HasTy agree R look elseBranch ty) (ha : Ty.bool.agrees a = true)
    (hb : agree b ty = true) :
    HasTy agree R look (.cond condition thenBranch elseBranch span) ty
  | lambda {look : Names} {param : String} {paramTy : Ty} {body : Expr}
    {span : Option Span} {b : Ty}
    (hbody : HasTy agree R (look.extend (.ofList [(param, paramTy)])) body b) :
    HasTy agree R look (.lambda param paramTy body span) (.arrow [paramTy] b)
  | app {look : Names} {head : Expr} {args : List Expr} {span : Option Span}
    {inputs argTys : List Ty}
    {ty : Ty} (hhead : HasTy agree R look head (.arrow inputs ty))
    (hargs : HaveTys agree R look args argTys) (hagree : Ty.agreeAll inputs argTys = true) :
    HasTy agree R look (.app head args span) ty
  | pair {look : Names} {first second : Expr} {span : Option Span} {a b : Ty}
    (hfirst : HasTy agree R look first a) (hsecond : HasTy agree R look second b) :
    HasTy agree R look (.pair first second span) (.pair a b)
  | fst {look : Names} {operand : Expr} {span : Option Span} {a b : Ty}
    (h : HasTy agree R look operand (.pair a b)) : HasTy agree R look (.fst operand span) a
  | snd {look : Names} {operand : Expr} {span : Option Span} {a b : Ty}
    (h : HasTy agree R look operand (.pair a b)) : HasTy agree R look (.snd operand span) b
  | construct {look : Names} {name : String} {args : List Expr} {span : Option Span}
    {info : ConstructorInfo} {argTys : List Ty} (hinfo : R.constructor? name = some info)
    (hargs : HaveTys agree R look args argTys) (hagree : Ty.agreeAll info.fields argTys = true) :
    HasTy agree R look (.construct name args span) (.construct name argTys info.data)
  | cases {look : Names} {scrutinee : Expr} {ps : List Pattern} {branches : List Expr}
    {span : Option Span} {subject ty : Ty} {tys : List Ty}
    (hscrutinee : HasTy agree R look scrutinee subject)
    (harms : ArmsHaveTys agree R look subject ps branches (ty :: tys))
    (hagree : ∀ ty' ∈ tys, ty.agrees ty' = true) :
    HasTy agree R look (.cases scrutinee ps branches span) ty

/-- The expressions have the types, one by one. -/
inductive HaveTys (agree : Ty → Ty → Bool) (R : Registry) : Names → List Expr → List Ty → Prop
  | nil {look : Names} : HaveTys agree R look [] []
  /-- An expression and further expressions. -/
  | cons {look : Names} {e : Expr} {es : List Expr} {ty : Ty} {tys : List Ty}
    (h : HasTy agree R look e ty) (hs : HaveTys agree R look es tys) :
    HaveTys agree R look (e :: es) (ty :: tys)

/-- The branches have the types, one by one, with the names of their patterns bound; each pattern
can fit a value of the type `subject`. -/
inductive ArmsHaveTys (agree : Ty → Ty → Bool) (R : Registry) :
    Names → Ty → List Pattern → List Expr → List Ty → Prop
  | nil {look : Names} {subject : Ty} : ArmsHaveTys agree R look subject [] [] []
  | cons {look : Names} {subject : Ty} {p : Pattern} {ps : List Pattern} {branch : Expr}
    {branches : List Expr} {bound : Table Ty} {ty : Ty} {tys : List Ty}
    (hp : p.bindings? R subject = .ok (some bound))
    (h : HasTy agree R (look.extend bound) branch ty)
    (hs : ArmsHaveTys agree R look subject ps branches tys) :
    ArmsHaveTys agree R look subject (p :: ps) (branch :: branches) (ty :: tys)

end

variable {agree agree' : Ty → Ty → Bool} {R R' : Registry} {look look' : Names}

/-- `HaveTys` is a relation of lists, one by one. -/
theorem haveTys_iff {es : List Expr} {tys : List Ty} :
    HaveTys agree R look es tys ↔ List.Forall₂ (HasTy agree R look) es tys := by
  induction es generalizing tys with
  | nil => exact ⟨fun h => by cases h; exact .nil, fun h => by cases h; exact .nil⟩
  | cons e es ih =>
    constructor
    · intro h
      cases h with | cons h hs => exact .cons h (ih.mp hs)
    · intro h
      cases h with | cons h hs => exact .cons h (ih.mpr hs)

/-- The type of a single arm. -/
def ArmHasTy (agree : Ty → Ty → Bool) (R : Registry) (look : Names) (subject : Ty)
    (arm : Pattern × Expr) (ty : Ty) : Prop :=
  ∃ bound, arm.1.bindings? R subject = .ok (some bound) ∧
    HasTy agree R (look.extend bound) arm.2 ty

/-- `ArmsHaveTys` is a relation of lists, one by one. -/
theorem armsHaveTys_iff {subject : Ty} {ps : List Pattern} {branches : List Expr} {tys : List Ty} :
    ArmsHaveTys agree R look subject ps branches tys ↔
      ps.length = branches.length ∧
        List.Forall₂ (ArmHasTy agree R look subject) (ps.zip branches) tys := by
  induction ps generalizing branches tys with
  | nil =>
    constructor
    · intro h
      cases h
      exact ⟨rfl, .nil⟩
    · rintro ⟨hlength, h⟩
      obtain rfl := List.length_eq_zero_iff.mp hlength.symm
      cases h
      exact .nil
  | cons p ps ih =>
    constructor
    · intro h
      cases h with
      | cons hp h hs =>
        obtain ⟨hlength, hall⟩ := ih.mp hs
        exact ⟨congrArg Nat.succ hlength, .cons ⟨_, hp, h⟩ hall⟩
    · rintro ⟨hlength, h⟩
      cases branches with
      | nil => cases hlength
      | cons branch branches =>
        obtain ⟨ty, tys, ⟨bound, hp, hbranch⟩, hall, rfl⟩ := List.forall₂_cons_left_iff.mp h
        exact .cons hp hbranch (ih.mpr ⟨Nat.succ.inj hlength, hall⟩)

/-! ### More declarations -/

mutual

/-- `HasTy` stays when more branches are accepted, more is declared and more names are bound. -/
theorem HasTy.mono (hagree : ∀ a b, agree a b = true → agree' a b = true) (hR : R ≤ R') :
    ∀ {look look' : Names} {e : Expr} {ty : Ty}, look.Keeps look' → HasTy agree R look e ty →
      HasTy agree' R' look' e ty
  | _, _, _, _, hlook, .var h => .var ((hlook _).1 _ h)
  | _, _, _, _, hlook, .quoted h hquoted => .quoted ((hlook _).2 hquoted h) hquoted
  | _, _, _, _, _, .number value span => .number value span
  | _, _, _, _, _, .boolean value span => .boolean value span
  | _, _, _, _, hlook, .not h hty => .not (HasTy.mono hagree hR hlook h) hty
  | _, _, _, _, hlook, .binary hop hleft hright ha hb =>
    .binary hop (HasTy.mono hagree hR hlook hleft) (HasTy.mono hagree hR hlook hright) ha hb
  | _, _, _, _, hlook, .cond hcondition hthen helse ha hb =>
    .cond (HasTy.mono hagree hR hlook hcondition) (HasTy.mono hagree hR hlook hthen)
      (HasTy.mono hagree hR hlook helse) ha (hagree _ _ hb)
  | _, _, _, _, hlook, .lambda hbody => .lambda (HasTy.mono hagree hR (hlook.extend _) hbody)
  | _, _, _, _, hlook, .app hhead hargs h =>
    .app (HasTy.mono hagree hR hlook hhead) (HaveTys.mono hagree hR hlook hargs) h
  | _, _, _, _, hlook, .pair hfirst hsecond =>
    .pair (HasTy.mono hagree hR hlook hfirst) (HasTy.mono hagree hR hlook hsecond)
  | _, _, _, _, hlook, .fst h => .fst (HasTy.mono hagree hR hlook h)
  | _, _, _, _, hlook, .snd h => .snd (HasTy.mono hagree hR hlook h)
  | _, _, _, _, hlook, .construct hinfo hargs h =>
    .construct (hR _ _ hinfo) (HaveTys.mono hagree hR hlook hargs) h
  | _, _, _, _, hlook, .cases hscrutinee harms h =>
    .cases (HasTy.mono hagree hR hlook hscrutinee) (ArmsHaveTys.mono hagree hR hlook harms) h

theorem HaveTys.mono (hagree : ∀ a b, agree a b = true → agree' a b = true) (hR : R ≤ R') :
    ∀ {look look' : Names} {es : List Expr} {tys : List Ty}, look.Keeps look' →
      HaveTys agree R look es tys → HaveTys agree' R' look' es tys
  | _, _, _, _, _, .nil => .nil
  | _, _, _, _, hlook, .cons h hs =>
    .cons (HasTy.mono hagree hR hlook h) (HaveTys.mono hagree hR hlook hs)

theorem ArmsHaveTys.mono (hagree : ∀ a b, agree a b = true → agree' a b = true) (hR : R ≤ R') :
    ∀ {look look' : Names} {subject : Ty} {ps : List Pattern} {branches : List Expr}
      {tys : List Ty},
      look.Keeps look' → ArmsHaveTys agree R look subject ps branches tys →
      ArmsHaveTys agree' R' look' subject ps branches tys
  | _, _, _, _, _, _, _, .nil => .nil
  | _, _, _, _, _, _, hlook, .cons hp h hs =>
    .cons (Pattern.bindings?_of_le hR hp) (HasTy.mono hagree hR (hlook.extend _) h)
      (ArmsHaveTys.mono hagree hR hlook hs)

end

/-! ### Inference and the rules -/

theorem forall₂_congr_of_mem {α β : Type} {rel rel' : α → β → Prop} {as : List α} {bs : List β}
    (h : ∀ a ∈ as, ∀ b, rel a b ↔ rel' a b) : List.Forall₂ rel as bs ↔ List.Forall₂ rel' as bs := by
  induction as generalizing bs with
  | nil => cases bs <;> simp
  | cons a as ih =>
    obtain ⟨ha, has⟩ := List.forall_mem_cons.mp h
    cases bs with
    | nil => simp
    | cons b bs => rw [List.forall₂_cons, List.forall₂_cons, ha, ih has]

/-- Where names mean the same apart from constructors without fields, they do inside a new level. -/
theorem extend_eq_get?_extend {d : Declared} {look : Names} {Γ : Context}
    (h : ∀ name, d.isNullary name = false → look name = Γ.get? name) (bound : Table Ty) :
    ∀ name, d.isNullary name = false → look.extend bound name = (Γ.extend bound).get? name := by
  intro name hname
  rw [Names.extend, h name hname, Chain.get?_extend]

/-- `inferWith` finds the types that the rules of `HasTy` give to an expression that has been
read. -/
theorem inferWith_eq_ok_iff {d : Declared} {e : Expr} (h : e.Readable d) {Γ : Context}
    {look : Names}
    (hlook : ∀ name, d.isNullary name = false → look name = Γ.get? name) {ty : Ty} :
    Γ.inferWith agree e = .ok ty ↔ HasTy agree Γ.registry look e ty := by
  induction h generalizing Γ look ty with
  | @var name span hatom hself =>
    rw [Context.inferWith_var_eq_ok, ← hlook name (of_ofAtom_eq_var hself).2]
    constructor
    · rintro (h | ⟨h, hquoted, rfl⟩)
      · exact .var h
      · exact .quoted h hquoted
    · intro h
      cases h with
      | var h => exact .inl h
      | quoted h hquoted => exact .inr ⟨h, hquoted, rfl⟩
  | number =>
    rw [Context.inferWith_number_eq_ok]
    exact ⟨fun h => h ▸ .number _ _, fun h => by cases h; rfl⟩
  | boolean value span =>
    rw [Context.inferWith_boolean_eq_ok]
    exact ⟨fun h => h ▸ .boolean _ _, fun h => by cases h; rfl⟩
  | not hoperand ih =>
    rw [Context.inferWith_not_eq_ok]
    simp only [ih hlook]
    constructor
    · rintro ⟨a, ha, hagree, rfl⟩
      exact .not ha hagree
    · intro h
      cases h with | not ha hagree => exact ⟨_, ha, hagree, rfl⟩
  | binary hop hleft hright ih ih' =>
    rw [Context.inferWith_binary_eq_ok]
    simp only [ih hlook, ih' hlook]
    constructor
    · rintro ⟨a, hl, b, hr, ha, hb, rfl⟩
      exact .binary hop hl hr ha hb
    · intro h
      cases h with | binary _ hl hr ha hb => exact ⟨_, hl, _, hr, ha, hb, rfl⟩
  | cond hcondition hthen helse ih ih' ih'' =>
    rw [Context.inferWith_cond_eq_ok]
    simp only [ih hlook, ih' hlook, ih'' hlook]
    constructor
    · rintro ⟨a, hc, b, ht, he, ha, hb⟩
      exact .cond hc ht he ha hb
    · intro h
      cases h with | cond hc ht he ha hb => exact ⟨_, hc, _, ht, he, ha, hb⟩
  | @lambda param paramTy body span hatom hparamTy hbody ih =>
    rw [Context.inferWith_lambda_eq_ok]
    have hbound := extend_eq_get?_extend hlook (.ofList [(param, paramTy)])
    constructor
    · rintro ⟨b, hb, rfl⟩
      exact .lambda ((ih hbound).mp hb)
    · intro h
      cases h with | lambda hb => exact ⟨_, (ih hbound).mpr hb, rfl⟩
  | @app head args span hlead hhead hargs ih ihs =>
    rw [Context.inferWith_app_eq_ok]
    have hall (tys : List Ty) :
        List.Forall₂ (fun e ty => Γ.inferWith agree e = .ok ty) args tys ↔
          List.Forall₂ (HasTy agree Γ.registry look) args tys :=
      forall₂_congr_of_mem fun e he ty => ihs e he hlook
    simp only [ih hlook, hall]
    constructor
    · rintro ⟨inputs, argTys, hhead, hargs, hagree⟩
      exact .app hhead (haveTys_iff.mpr hargs) hagree
    · intro h
      cases h with
      | app hhead hargs hagree => exact ⟨_, _, hhead, haveTys_iff.mp hargs, hagree⟩
  | pair hfirst hsecond ih ih' =>
    rw [Context.inferWith_pair_eq_ok]
    simp only [ih hlook, ih' hlook]
    constructor
    · rintro ⟨a, ha, b, hb, rfl⟩
      exact .pair ha hb
    · intro h
      cases h with | pair ha hb => exact ⟨_, ha, _, hb, rfl⟩
  | fst hoperand ih =>
    rw [Context.inferWith_fst_eq_ok]
    simp only [ih hlook]
    constructor
    · rintro ⟨b, hb⟩
      exact .fst hb
    · intro h
      cases h with | fst hb => exact ⟨_, hb⟩
  | snd hoperand ih =>
    rw [Context.inferWith_snd_eq_ok]
    simp only [ih hlook]
    constructor
    · rintro ⟨a, ha⟩
      exact .snd ha
    · intro h
      cases h with | snd ha => exact ⟨_, ha⟩
  | @construct name args span hatom hname hargs ihs =>
    rw [Context.inferWith_construct_eq_ok]
    have hall (tys : List Ty) :
        List.Forall₂ (fun e ty => Γ.inferWith agree e = .ok ty) args tys ↔
          List.Forall₂ (HasTy agree Γ.registry look) args tys :=
      forall₂_congr_of_mem fun e he ty => ihs e he hlook
    simp only [hall]
    constructor
    · rintro ⟨info, argTys, hinfo, hargs, hagree, rfl⟩
      exact .construct hinfo (haveTys_iff.mpr hargs) hagree
    · intro h
      cases h with
      | construct hinfo hargs hagree => exact ⟨_, _, hinfo, haveTys_iff.mp hargs, hagree, rfl⟩
  | @cases scrutinee ps branches span hscrutinee hlength hpatterns hbranches ih ihs =>
    rw [Context.inferWith_cases_eq_ok]
    have harm (subject : Ty) (tys : List Ty) :
        List.Forall₂ (Context.ArmHasTy agree Γ subject) (ps.zip branches) tys ↔
          List.Forall₂ (ArmHasTy agree Γ.registry look subject) (ps.zip branches) tys :=
      forall₂_congr_of_mem fun arm harm ty => exists_congr fun bound => and_congr_right fun _ =>
        ihs arm.2 (List.of_mem_zip harm).2 (extend_eq_get?_extend hlook bound)
    simp only [ih hlook, harm]
    constructor
    · rintro ⟨subject, tys, hscrutinee, hlength, harms, hagree⟩
      exact .cases hscrutinee (armsHaveTys_iff.mpr ⟨hlength, harms⟩) hagree
    · intro h
      cases h with
      | cases hscrutinee harms hagree =>
        obtain ⟨hlength, harms⟩ := armsHaveTys_iff.mp harms
        exact ⟨_, _, hscrutinee, hlength, harms, hagree⟩

end Expr

end Casewise
