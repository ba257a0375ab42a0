import Casewise.Proofs.Pattern.TwoModes
import Casewise.Proofs.Running.Leads
import Casewise.Proofs.Typing.Rules
import Casewise.Running.Evaluate

/-!
# Models of values

A model says which values a type has in a world and what the names of a scope mean there, and
promises what evaluation needs to know about that. Then evaluating an expression leads to a value of
its type, in every model, as soon as evaluating its parts and calling functions does: there is one
rule for each form of expression (`Model.sound_step`). The rules do not say how far evaluation is
followed. For a fixed depth they show that evaluation does no harm, and for growing depths that it
comes to an end.

## Main definitions

* `Model`: values and scopes in worlds.
* `Model.Sound`: evaluating an expression leads to values of its types.
* `Model.Calls`, `Model.Closes`: what must be known about functions.

## Main statements

* `Model.sound_step`: an expression is sound if its parts are, by one rule for each form.
-/

namespace Casewise

/-- No symbol stands for `BinaryOp.other`, an operator that the language does not know. -/
theorem BinaryOp.ofSymbol?_ne_other {symbol name : String}
    (unknown : name ∉ ["plus", "eq", "and", "or"]) :
    ofSymbol? symbol ≠ some (other name unknown) := by
  rw [ofSymbol?]
  split_ifs <;> simp

/-- Values of types and meanings of names in worlds. -/
structure Model (W : Type) [Preorder W] extends Frame W where
  /-- The value belongs to the type. -/
  Val : W → Value → Ty → Prop
  /-- The names mean in the scope what they should, to values of their types. -/
  Env : W → ScopeId → Names → Prop
  /-- The declared data types. -/
  registry : W → Registry
  /-- Values keep their types. -/
  val_mono : ∀ {w w' : W} {v : Value} {ty : Ty}, w ≤ w' → Val w v ty → Val w' v ty
  /-- Names keep their meaning. -/
  env_mono : ∀ {w w' : W} {s : ScopeId} {look : Names}, w ≤ w' → Env w s look → Env w' s look
  /-- Constructors stay declared. -/
  registry_mono : ∀ {w w' : W}, w ≤ w' → registry w ≤ registry w'
  /-- Types that agree have the same values. -/
  val_agrees : ∀ {w : W} {v : Value} {ty ty' : Ty}, ty.agrees ty' = true → Val w v ty → Val w v ty'
  /-- A value of a type has the shape of one. -/
  shape : ∀ {w : W} {v : Value} {ty : Ty}, Val w v ty → v.Shape (registry w) (Val w) ty
  /-- Apart from functions, what has the shape of a value of a type is one. -/
  val_of_shape : ∀ {w : W} {v : Value} {ty : Ty}, v.isFunction = false →
    v.Shape (registry w) (Val w) ty → Val w v ty
  /-- The scopes know the declared data types. -/
  registry_eq : ∀ {w : W} {m : Machine} {s : ScopeId} {look : Names}, Holds w m → Env w s look →
    m.scopes.registry s = registry w
  /-- A name that means something is bound to a value of its type. -/
  get?_eq_some : ∀ {w : W} {m : Machine} {s : ScopeId} {look : Names} {name : String} {ty : Ty},
    Holds w m → Env w s look → look name = some ty →
      ∃ v, m.scopes.get? s name = some v ∧ Val w v ty
  /-- A quoted name that means nothing is not bound. -/
  get?_eq_none : ∀ {w : W} {m : Machine} {s : ScopeId} {look : Names} {name : String},
    Holds w m → Env w s look → Text.isQuoted name = true → look name = none →
      m.scopes.get? s name = none
  /-- A new scope binds its names to values of their types. -/
  exists_extend : ∀ {w : W} {m : Machine} {s : ScopeId} {look : Names} {bound : Table Ty}
    {vals : Table Value}, Holds w m → Env w s look → bound.Alike (fun ty v => Val w v ty) vals →
      ∃ w', Reaches w w' ∧ Holds w' { m with scopes := (m.scopes.extend s vals).2 } ∧
        Env w' (m.scopes.extend s vals).1 (look.extend bound)
  /-- A program may always stop because no pattern fits. -/
  harmless_noMatch : ∀ {stop : Stop}, stop.NoMatch → Harmless stop

namespace Model

variable {W : Type} [Preorder W] {M : Model W} {w : W}

/-! ### What stays known -/

theorem val_later {w' : W} (hw : M.Reaches w w') {v : Value} {ty : Ty} (h : M.Val w v ty) :
    M.Val w' v ty :=
  M.val_mono (M.le_of_reaches hw) h

theorem env_later {w' : W} (hw : M.Reaches w w') {s : ScopeId} {look : Names} (h : M.Env w s look) :
    M.Env w' s look :=
  M.env_mono (M.le_of_reaches hw) h

theorem le_registry {w' : W} (hw : M.Reaches w w') {R : Registry} (h : R ≤ M.registry w) :
    R ≤ M.registry w' :=
  R.le_trans h (M.registry_mono (M.le_of_reaches hw))

/-! ### Values of known types -/

/-- A value of a built-in type is a number, a truth value or a string, as `Ty.prim` says. -/
theorem prim_cases {v : Value} {name : String} (h : M.Val w v (.prim name)) :
    (Ty.prim name = .nat ∧ ∃ n, v = .number n) ∨ (Ty.prim name = .bool ∧ ∃ b, v = .boolean b) ∨
      (Ty.prim name = .str ∧ ∃ s, v = .string s) := by
  have hshape := M.shape h
  generalize hty : Ty.prim name = ty at hshape
  cases hshape with
  | number n => exact .inl ⟨rfl, n, rfl⟩
  | boolean b => exact .inr (.inl ⟨rfl, b, rfl⟩)
  | string s => exact .inr (.inr ⟨rfl, s, rfl⟩)
  | constructed _ howner _ =>
    rw [← hty] at howner
    cases howner
  | _ => cases hty

/-- A value of type `Ty.bool` is a truth value. -/
theorem eq_boolean {v : Value} (h : M.Val w v .bool) : ∃ b, v = .boolean b := by
  rcases M.prim_cases h with ⟨hty, -⟩ | ⟨-, hv⟩ | ⟨hty, -⟩
  · exact absurd hty (by decide)
  · exact hv
  · exact absurd hty (by decide)

theorem eq_number {v : Value} (h : M.Val w v .nat) : ∃ n, v = .number n := by
  rcases M.prim_cases h with ⟨-, hv⟩ | ⟨hty, -⟩ | ⟨hty, -⟩
  · exact hv
  · exact absurd hty (by decide)
  · exact absurd hty (by decide)

theorem eq_string {v : Value} (h : M.Val w v .str) : ∃ s, v = .string s := by
  rcases M.prim_cases h with ⟨hty, -⟩ | ⟨hty, -⟩ | ⟨-, hv⟩
  · exact absurd hty (by decide)
  · exact absurd hty (by decide)
  · exact hv

/-- A value of a pair type is a `pair` of values of the component types. -/
theorem eq_pair {v : Value} {a b : Ty} (h : M.Val w v (.pair a b)) :
    ∃ x y, v = .pair x y ∧ M.Val w x a ∧ M.Val w y b := by
  have hshape := M.shape h
  cases hshape with
  | pair hx hy => exact ⟨_, _, rfl, hx, hy⟩
  | constructed _ howner _ => cases howner

theorem eq_two {vs : List Value} {a b : Ty} (h : List.Forall₂ (M.Val w) vs [a, b]) :
    ∃ x y, vs = [x, y] ∧ M.Val w x a ∧ M.Val w y b := by
  obtain ⟨x, rest, hx, hrest, rfl⟩ := List.forall₂_cons_right_iff.mp h
  obtain ⟨y, rest, hy, hnil, rfl⟩ := List.forall₂_cons_right_iff.mp hrest
  obtain rfl := List.forall₂_nil_right_iff.mp hnil
  exact ⟨x, y, rfl, hx, hy⟩

theorem eq_numbers {vs : List Value} (h : List.Forall₂ (M.Val w) vs [.nat, .nat]) :
    ∃ m n, vs = [.number m, .number n] := by
  obtain ⟨x, y, rfl, hx, hy⟩ := M.eq_two h
  obtain ⟨m, rfl⟩ := M.eq_number hx
  obtain ⟨n, rfl⟩ := M.eq_number hy
  exact ⟨m, n, rfl⟩

theorem eq_strings {vs : List Value} (h : List.Forall₂ (M.Val w) vs [.str, .str]) :
    ∃ s t, vs = [.string s, .string t] := by
  obtain ⟨x, y, rfl, hx, hy⟩ := M.eq_two h
  obtain ⟨s, rfl⟩ := M.eq_string hx
  obtain ⟨t, rfl⟩ := M.eq_string hy
  exact ⟨s, t, rfl⟩

theorem val_number (n : Int) : M.Val w (.number n) .nat :=
  M.val_of_shape rfl (.number n)

theorem val_boolean (b : Bool) : M.Val w (.boolean b) .bool :=
  M.val_of_shape rfl (.boolean b)

theorem val_string (s : String) : M.Val w (.string s) .str :=
  M.val_of_shape rfl (.string s)

/-- Values of types that agree one by one have the other types as well. -/
theorem vals_agree {vs : List Value} {tys tys' : List Ty} (h : Ty.agreeAll tys' tys = true)
    (hvs : List.Forall₂ (M.Val w) vs tys) : List.Forall₂ (M.Val w) vs tys' := by
  rw [Ty.agreeAll_iff_forall₂] at h
  induction hvs generalizing tys' with
  | nil =>
    cases h
    exact .nil
  | cons hv _ ih =>
    obtain ⟨ty', tys', hty, htys, rfl⟩ := List.forall₂_cons_right_iff.mp h
    exact .cons (M.val_agrees (Ty.agrees_symm hty) hv) (ih htys)

theorem val_constructed {name : String} {fields : List Value} {info : ConstructorInfo} {ty : Ty}
    (hinfo : (M.registry w).constructor? name = some info) (howner : ty.owner? = some info.data)
    (hfields : List.Forall₂ (M.Val w) fields info.fields) : M.Val w (.constructed name fields) ty :=
  M.val_of_shape rfl (.constructed hinfo howner hfields)

/-! ### Soundness -/

/-- Evaluating the expression leads to a value of its type, whatever its type, its scope and the
world. -/
def Sound (M : Model W) (recur : ℕ → Evaluator) (e : Expr) : Prop :=
  ∀ ⦃w : W⦄ ⦃s : ScopeId⦄ ⦃look : Names⦄ ⦃R : Registry⦄ ⦃ty : Ty⦄, e.HasTy Ty.agrees R look ty →
    R ≤ M.registry w → M.Env w s look → M.Leads w (fun d => recur d s e) fun w' v => M.Val w' v ty

/-- Calling a function with arguments of its types leads to a value of its result type. -/
def Calls (M : Model W) (recur : ℕ → Evaluator) : Prop :=
  ∀ ⦃w : W⦄ ⦃f : Value⦄ ⦃inputs : List Ty⦄ ⦃output : Ty⦄ ⦃args : List Value⦄,
    M.Val w f (.arrow inputs output) → List.Forall₂ (M.Val w) args inputs →
    ∀ head span, M.Leads w (fun d => Evaluator.call (recur d) f args head span) fun w' v =>
      M.Val w' v output

/-- A closure whose body is sound is a function of its type. -/
def Closes (M : Model W) (recur : ℕ → Evaluator) : Prop :=
  ∀ ⦃w : W⦄ ⦃s : ScopeId⦄ ⦃look : Names⦄ ⦃R : Registry⦄ ⦃param : String⦄ ⦃a b : Ty⦄ ⦃body : Expr⦄,
    M.Sound recur body → body.HasTy Ty.agrees R (look.extend (.ofList [(param, a)])) b →
    R ≤ M.registry w → M.Env w s look → M.Val w (.closure param body s) (.arrow [a] b)

/-- The evaluator that makes one step and leaves the rest to others. -/
def stepped (recur : ℕ → Evaluator) : ℕ → Evaluator :=
  fun d => Evaluator.step (recur d)

section Rules

variable {recur : ℕ → Evaluator} {span : Option Span}

theorem leads_pure_bind {α β : Type} {b : β} {f : ℕ → β → Run α} {Q : W → α → Prop}
    (h : M.Leads w (fun d => f d b) Q) : M.Leads w (fun d => pure b >>= f d) Q := by
  simpa only [pure_bind] using h

theorem sound_number (value : Int) : M.Sound (stepped recur) (.number value span) := by
  intro w s look R ty hty hR henv
  cases hty
  exact .pure (M.val_number value)

theorem sound_boolean (value : Bool) : M.Sound (stepped recur) (.boolean value span) := by
  intro w s look R ty hty hR henv
  cases hty
  exact .pure (M.val_boolean value)

/-- A name is `Sound`: it is bound to a value of its type. -/
theorem sound_var (name : String) : M.Sound (stepped recur) (.var name span) := by
  intro w s look R ty hty hR henv
  cases hty with
  | var h =>
    have hget : M.Leads w (fun _ => Run.withScopes (·.get? s name)) fun w' found =>
        ∃ v, found = some v ∧ M.Val w' v ty :=
      .withScopes fun m hm => M.get?_eq_some hm henv h
    refine hget.bind fun w' hw found hfound => ?_
    obtain ⟨v, rfl, hv⟩ := hfound
    exact .pure hv
  | quoted h hquoted =>
    have hget : M.Leads w (fun _ => Run.withScopes (·.get? s name)) fun _ found => found = none :=
      .withScopes fun m hm => M.get?_eq_none hm henv hquoted h
    refine hget.bind fun w' hw found hfound => ?_
    obtain rfl := hfound
    simp only [hquoted, if_true]
    exact .pure (M.val_string _)

/-- A negation is `Sound` if its operand is. -/
theorem sound_not {operand : Expr} (h : M.Sound recur operand) :
    M.Sound (stepped recur) (.not operand span) := by
  intro w s look R ty hty hR henv
  cases hty with
  | not hoperand hagree =>
    refine (h hoperand hR henv).bind fun w' hw v hv => ?_
    obtain ⟨b, rfl⟩ := M.eq_boolean (M.val_agrees (Ty.agrees_symm hagree) hv)
    exact leads_pure_bind (.pure (M.val_boolean _))

/-- A binary operator that the language knows is `Sound` if its operands are. -/
theorem sound_binary {op : BinaryOp} {left right : Expr} (hleft : M.Sound recur left)
    (hright : M.Sound recur right) : M.Sound (stepped recur) (.binary op left right span) := by
  intro w s look R ty hty hR henv
  cases hty with
  | binary hop hl hr ha hb =>
    refine (hleft hl hR henv).bind fun w₁ hw₁ a hav => ?_
    refine (hright hr (M.le_registry hw₁ hR) (M.env_later hw₁ henv)).bind
      fun w₂ hw₂ b hbv => ?_
    have hav := M.val_later hw₂ (M.val_agrees (Ty.agrees_symm ha) hav)
    have hbv := M.val_agrees (Ty.agrees_symm hb) hbv
    cases op with
    | plus =>
      obtain ⟨m, rfl⟩ := M.eq_number hav
      obtain ⟨n, rfl⟩ := M.eq_number hbv
      exact .pure (M.val_number _)
    | other name unknown => exact absurd hop (BinaryOp.ofSymbol?_ne_other unknown)
    | _ =>
      obtain ⟨x, rfl⟩ := M.eq_boolean hav
      obtain ⟨y, rfl⟩ := M.eq_boolean hbv
      exact leads_pure_bind (leads_pure_bind (.pure (M.val_boolean _)))

/-- A choice between two branches is `Sound` if its parts are. -/
theorem sound_cond {condition thenBranch elseBranch : Expr} (hcondition : M.Sound recur condition)
    (hthen : M.Sound recur thenBranch) (helse : M.Sound recur elseBranch) :
    M.Sound (stepped recur) (.cond condition thenBranch elseBranch span) := by
  intro w s look R ty hty hR henv
  cases hty with
  | cond hc ht he ha hb =>
    refine (hcondition hc hR henv).bind fun w₁ hw₁ v hv => ?_
    obtain ⟨b, rfl⟩ := M.eq_boolean (M.val_agrees (Ty.agrees_symm ha) hv)
    have hR₁ := M.le_registry hw₁ hR
    have henv₁ := M.env_later hw₁ henv
    refine leads_pure_bind ?_
    cases b with
    | true => exact (hthen ht hR₁ henv₁).imp fun w₂ _ v hv => M.val_agrees hb hv
    | false => exact helse he hR₁ henv₁

/-- A function is `Sound` if what is known about its body is enough to close it. -/
theorem sound_lambda {param : String} {paramTy : Ty} {body : Expr} (hcloses : M.Closes recur)
    (hbody : M.Sound recur body) : M.Sound (stepped recur) (.lambda param paramTy body span) := by
  intro w s look R ty hty hR henv
  cases hty with
  | lambda hb => exact .pure (hcloses hbody hb hR henv)

/-- Expressions that are `Sound` one by one are evaluated to values of their types. -/
theorem leads_mapM {args : List Expr} (hargs : ∀ arg ∈ args, M.Sound recur arg) {w : W}
    {s : ScopeId} {look : Names} {R : Registry} {tys : List Ty}
    (htys : Expr.HaveTys Ty.agrees R look args tys) (hR : R ≤ M.registry w)
    (henv : M.Env w s look) :
    M.Leads w (fun d => args.mapM (recur d s)) fun w' vs => List.Forall₂ (M.Val w') vs tys := by
  refine Frame.Leads.mapM M.val_mono ?_
  have htys := Expr.haveTys_iff.mp htys
  rw [List.forall₂_iff_zip] at htys ⊢
  refine ⟨htys.1, fun hmem w' hw' => ?_⟩
  exact hargs _ (List.of_mem_zip hmem).1 (htys.2 hmem) (M.le_registry hw' hR)
    (M.env_later hw' henv)

/-- An application is `Sound` if its parts are and calls are. -/
theorem sound_app {head : Expr} {args : List Expr} (hcalls : M.Calls recur)
    (hhead : M.Sound recur head) (hargs : ∀ arg ∈ args, M.Sound recur arg) :
    M.Sound (stepped recur) (.app head args span) := by
  intro w s look R ty hty hR henv
  cases hty with
  | app hheadTy hargTys hagree =>
    refine (hhead hheadTy hR henv).bind fun w₁ hw₁ f hf => ?_
    have hR₁ := M.le_registry hw₁ hR
    refine (leads_mapM hargs hargTys hR₁ (M.env_later hw₁ henv)).bind fun w₂ hw₂ vs hvs => ?_
    exact hcalls (M.val_later hw₂ hf) (M.vals_agree hagree hvs) head span

/-- A pair is `Sound` if its components are. -/
theorem sound_pair {first second : Expr} (hfirst : M.Sound recur first)
    (hsecond : M.Sound recur second) : M.Sound (stepped recur) (.pair first second span) := by
  intro w s look R ty hty hR henv
  cases hty with
  | pair ha hb =>
    refine (hfirst ha hR henv).bind fun w₁ hw₁ a hav => ?_
    refine (hsecond hb (M.le_registry hw₁ hR) (M.env_later hw₁ henv)).bind
      fun w₂ hw₂ b hbv => ?_
    exact .pure (M.val_of_shape rfl (.pair (M.val_later hw₂ hav) hbv))

/-- The first component of a pair is `Sound` if the pair is. -/
theorem sound_fst {operand : Expr} (h : M.Sound recur operand) :
    M.Sound (stepped recur) (.fst operand span) := by
  intro w s look R ty hty hR henv
  cases hty with
  | fst hoperand =>
    refine (h hoperand hR henv).bind fun w₁ hw₁ v hv => ?_
    obtain ⟨a, b, rfl, ha, -⟩ := M.eq_pair hv
    exact .pure ha

theorem sound_snd {operand : Expr} (h : M.Sound recur operand) :
    M.Sound (stepped recur) (.snd operand span) := by
  intro w s look R ty hty hR henv
  cases hty with
  | snd hoperand =>
    refine (h hoperand hR henv).bind fun w₁ hw₁ v hv => ?_
    obtain ⟨a, b, rfl, -, hb⟩ := M.eq_pair hv
    exact .pure hb

theorem leads_registry {s : ScopeId} {look : Names} (henv : M.Env w s look) :
    M.Leads w (fun _ => Run.withScopes (·.registry s)) fun _ R => R = M.registry w :=
  .withScopes fun _ hm => M.registry_eq hm henv

/-- What a constructor builds is `Sound` if the fields are. -/
theorem sound_construct {name : String} {args : List Expr}
    (hargs : ∀ arg ∈ args, M.Sound recur arg) :
    M.Sound (stepped recur) (.construct name args span) := by
  intro w s look R ty hty hR henv
  cases hty with
  | @construct _ _ _ _ info argTys hinfo hargTys hagree =>
    refine (leads_mapM hargs hargTys hR henv).bind fun w₁ hw₁ vs hvs => ?_
    refine (leads_registry (M.env_later hw₁ henv)).bind fun w₂ hw₂ R₂ hR₂ => ?_
    obtain rfl := hR₂
    have hinfo₁ := M.le_registry hw₁ hR _ _ hinfo
    have hvs := M.vals_agree hagree hvs
    have hlength : vs.length = info.arity := hvs.length_eq
    simp only [hinfo₁, hlength, ne_eq, not_true_eq_false, if_false]
    have hvs₂ := hvs.imp fun _ _ hv => M.val_later hw₂ hv
    exact .pure (M.val_constructed (M.registry_mono (M.le_of_reaches hw₂) _ _ hinfo₁) rfl hvs₂)

/-- `Run.extend` binds names in a new scope to values of their types. -/
theorem leads_extend {s : ScopeId} {look : Names} {bound : Table Ty} {vals : Table Value}
    (henv : M.Env w s look) (hbound : bound.Alike (fun ty v => M.Val w v ty) vals) :
    M.Leads w (fun _ => Run.extend s vals) fun w' t => M.Env w' t (look.extend bound) := by
  refine .of_ok fun m hm => ?_
  obtain ⟨w', hw', hm', henv'⟩ := M.exists_extend hm henv hbound
  exact ⟨_, _, w', rfl, hw', hm', henv'⟩

/-- `select` gives a value of the common type of the arms, by the first arm that fits, or no arm
fits. -/
theorem leads_select {s : ScopeId} {look : Names} {R : Registry} {subject : Ty}
    {ty : Ty} {v : Value}
    {ps : List Pattern} {branches : List Expr} {tys : List Ty}
    (hsound : ∀ branch ∈ branches, M.Sound recur branch) (hR : R ≤ M.registry w)
    (henv : M.Env w s look) (hv : M.Val w v subject)
    (harms : Expr.ArmsHaveTys Ty.agrees R look subject ps branches tys)
    (hagree : ∀ ty' ∈ tys, ty.agrees ty' = true) :
    M.Leads w (fun d => Evaluator.select (recur d) s v span ps branches) fun w' v =>
      M.Val w' v ty := by
  induction ps generalizing w branches tys with
  | nil => exact .stop (M.harmless_noMatch ⟨_, _, rfl⟩)
  | cons p ps ih =>
    cases harms with
    | @cons _ _ _ _ branch branches bound ty' tys hp hbranch harms =>
      obtain ⟨hbranchSound, hsound⟩ := List.forall_mem_cons.mp hsound
      obtain ⟨hty, hagree⟩ := List.forall_mem_cons.mp hagree
      simp only [Evaluator.select]
      refine (leads_registry henv).bind fun w₁ hw₁ R₁ hR₁ => ?_
      obtain rfl := hR₁
      have hp := Pattern.bindings?_of_le hR hp
      have hfit := Pattern.bindings?_of_shape (fun _ _ => M.shape) hv hp
      have hstay : M.Leads w₁ (fun _ => Run.ofExcept (p.bindings? (M.registry w) v))
          fun _ found => p.bindings? (M.registry w) v = .ok found := by
        rcases hfit with ⟨vals, hvals, -⟩ | hnone
        · exact .ofExcept hvals hvals
        · exact .ofExcept hnone hnone
      refine hstay.bind fun w₂ hw₂ found hfound => ?_
      refine (Frame.Leads.log _).bind fun w₃ hw₃ _ _ => ?_
      have hw : M.Reaches w w₃ := M.reaches_trans hw₁ (M.reaches_trans hw₂ hw₃)
      have hR₃ := M.le_registry hw hR
      have henv₃ := M.env_later hw henv
      rcases hfit with ⟨vals, hvals, hbound⟩ | hnone
      · obtain rfl := Except.ok.inj (hfound.symm.trans hvals)
        have hbound₃ := hbound.imp fun _ _ h => M.val_later hw h
        refine (leads_extend henv₃ hbound₃).bind fun w₄ hw₄ t henv₄ => ?_
        refine (hbranchSound hbranch (M.le_registry hw₄ hR₃) henv₄).imp
          fun w₅ _ v hv => M.val_agrees (Ty.agrees_symm hty) hv
      · obtain rfl := Except.ok.inj (hfound.symm.trans hnone)
        exact ih hsound hR₃ henv₃ (M.val_later hw hv) harms hagree

/-- A choice by patterns is `Sound` if its parts are. -/
theorem sound_cases {scrutinee : Expr} {ps : List Pattern} {branches : List Expr}
    (hscrutinee : M.Sound recur scrutinee) (hbranches : ∀ branch ∈ branches, M.Sound recur branch) :
    M.Sound (stepped recur) (.cases scrutinee ps branches span) := by
  intro w s look R ty hty hR henv
  cases hty with
  | cases hsubject harms hagree =>
    refine (hscrutinee hsubject hR henv).bind fun w₁ hw₁ v hv => ?_
    have hlength := (Expr.armsHaveTys_iff.mp harms).1
    simp only [hlength, ne_eq, not_true_eq_false, if_false]
    refine leads_select hbranches (M.le_registry hw₁ hR) (M.env_later hw₁ henv) hv
      harms ?_
    exact List.forall_mem_cons.mpr ⟨Ty.agrees_refl ty, hagree⟩

/-- `Builtin.call` takes values of its `inputs` to a value of its `output`. -/
theorem exists_call_builtin {b : Builtin} {args : List Value}
    (hargs : List.Forall₂ (M.Val w) args b.inputs) :
    ∃ v, b.call (some b.arity) args = .ok v ∧ M.Val w v b.output := by
  cases b with
  | sub | mul =>
    obtain ⟨m, n, rfl⟩ := M.eq_numbers hargs
    exact ⟨_, rfl, M.val_number _⟩
  | lt | le | natEq =>
    obtain ⟨m, n, rfl⟩ := M.eq_numbers hargs
    exact ⟨_, rfl, M.val_boolean _⟩
  | strEq =>
    obtain ⟨a, b, rfl⟩ := M.eq_strings hargs
    exact ⟨_, rfl, M.val_boolean _⟩
  | concat =>
    obtain ⟨a, b, rfl⟩ := M.eq_strings hargs
    exact ⟨_, rfl, M.val_string _⟩
  | «show» =>
    obtain ⟨v, vs, hv, hvs, rfl⟩ := List.forall₂_cons_right_iff.mp hargs
    obtain rfl := List.forall₂_nil_right_iff.mp hvs
    obtain ⟨n, rfl⟩ := M.eq_number hv
    exact ⟨_, rfl, M.val_string _⟩

/-- `call` of a built-in function with values of its types gives a value of its type. -/
theorem leads_call_builtin {b : Builtin} {args : List Value}
    (hargs : List.Forall₂ (M.Val w) args b.inputs) (head : Expr) (span : Option Span) :
    M.Leads w (fun d => Evaluator.call (recur d) (.builtin b) args head span) fun w' v =>
      M.Val w' v b.output := by
  obtain ⟨v, hcall, hv⟩ := M.exists_call_builtin hargs
  exact .ofExcept hcall hv

/-- `call` of a constructor with values of the types of its fields gives a value of its data
type. -/
theorem leads_call_constructor {name : String} {info : ConstructorInfo} {args : List Value}
    (hinfo : (M.registry w).constructor? name = some info)
    (hargs : List.Forall₂ (M.Val w) args info.fields) (head : Expr) (span : Option Span) :
    M.Leads w (fun d => Evaluator.call (recur d) (.constructor name info.arity) args head span)
      fun w' v => M.Val w' v (.data info.data) := by
  have hcount : checkCount ("'" ++ name ++ "'") info.arity args = .ok () := by
    rw [checkCount, hargs.length_eq]
    exact if_pos rfl
  refine (Frame.Leads.ofExcept (Q := fun _ _ => True) hcount trivial).bind fun w₁ hw₁ _ _ => ?_
  have hargs₁ := hargs.imp fun _ _ hv => M.val_later hw₁ hv
  exact .pure (M.val_constructed (M.registry_mono (M.le_of_reaches hw₁) _ _ hinfo) rfl hargs₁)

/-- In a model whose `Calls` and `Closes` hold, an expression is `Sound` one evaluation deeper if
its parts are. -/
theorem sound_step (hcalls : M.Calls recur) (hcloses : M.Closes recur) {e : Expr}
    (hparts : ∀ part, sizeOf part < sizeOf e → M.Sound recur part) : M.Sound (stepped recur) e := by
  cases e with
  | var name => exact sound_var name
  | number value => exact sound_number value
  | boolean value => exact sound_boolean value
  | not operand => exact sound_not (hparts _ (by simp; omega))
  | binary op left right =>
    exact sound_binary (hparts _ (by simp; omega)) (hparts _ (by simp; omega))
  | cond condition thenBranch elseBranch =>
    exact sound_cond (hparts _ (by simp; omega)) (hparts _ (by simp; omega))
      (hparts _ (by simp; omega))
  | lambda param paramTy body => exact sound_lambda hcloses (hparts _ (by simp; omega))
  | app head args =>
    refine sound_app hcalls (hparts _ (by simp; omega)) fun arg harg => hparts _ ?_
    have := List.sizeOf_lt_of_mem harg
    simp
    omega
  | pair first second => exact sound_pair (hparts _ (by simp; omega)) (hparts _ (by simp; omega))
  | fst operand => exact sound_fst (hparts _ (by simp; omega))
  | snd operand => exact sound_snd (hparts _ (by simp; omega))
  | construct name args =>
    refine sound_construct fun arg harg => hparts _ ?_
    have := List.sizeOf_lt_of_mem harg
    simp
    omega
  | cases scrutinee ps branches =>
    refine sound_cases (hparts _ (by simp; omega)) fun branch hbranch => hparts _ ?_
    have := List.sizeOf_lt_of_mem hbranch
    simp
    omega

/-- Evaluation with its record and its places of errors is `Sound` if the rule for the form is. -/
theorem sound_of_stepped {e : Expr} (h : M.Sound (stepped recur) e) :
    M.Sound (fun d s e => do
      Run.log (.evaluating e)
      Run.located e.span (Evaluator.step (recur d) s e)) e := by
  intro w s look R ty hty hR henv
  refine (Frame.Leads.log _).bind fun w₁ hw₁ _ _ => ?_
  exact (h hty (M.le_registry hw₁ hR) (M.env_later hw₁ henv)).located e.span

end Rules

end Model

end Casewise
