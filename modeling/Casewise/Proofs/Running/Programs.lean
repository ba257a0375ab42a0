import Casewise.Proofs.Running.Model
import Casewise.Proofs.Scope.Forest
import Casewise.Proofs.Typing.Statements
import Casewise.Session

/-!
# Running a program that checks

Checking and running go over the same statements, and after each of them the root of the machine
binds the names that the context binds, to values of their types. The two differ at one point: a
constructor without fields is bound to a function of no arguments, but has its data type for the
checker. Its name never reads as a name, so no program sees the difference.

A `ProgramModel` is a model that can be carried through the statements it allows.

## Main definitions

* `ProgramModel`: models with an account of the root.
* `ProgramModel.Follows`: the root of a machine is as the context says.
* `Program.Accepted`: programs that check.

## Main statements

* `ProgramModel.leads_stmt`: running a statement follows checking it.
* `ProgramModel.leads_program`: running a program follows checking it.
-/

namespace Casewise

/-- The names that a statement binds. -/
def Stmt.binds : Stmt → List String
  | define name _ _ => [name]
  | data _ constructors _ => constructors.map ConstructorDecl.name
  | _ => []

/-- `Builtin.types` and `Builtin.values` name the same functions, if a program starts with them. -/
theorem Builtin.alike_start {rel : Ty → Value → Prop}
    (h : ∀ b : Builtin, rel b.signature (.builtin b)) (builtins : Bool) :
    Table.Alike rel (if builtins then Builtin.types else ∅)
      (if builtins then Builtin.values else ∅) := by
  cases builtins with
  | false => exact .empty
  | true =>
    have hall : List.Forall₂ (fun a b => a.1 = b.1 ∧ rel a.2 b.2)
        (Builtin.all.map fun b => (b.name, b.signature))
        (Builtin.all.map fun b => (b.name, .builtin b)) := by
      rw [List.forall₂_map_left_iff, List.forall₂_map_right_iff, List.forall₂_same]
      exact fun b _ => ⟨rfl, h b⟩
    exact hall

/-- Models with an account of the root, which statements change. -/
structure ProgramModel (W : Type) [Preorder W] extends Model W where
  /-- The root binds the names of the table to values of their types, and knows the data types. -/
  Root : W → Table Ty → Registry → Prop
  /-- The model can be carried through the statement. -/
  Allows : Stmt → Prop
  /-- Evaluating an expression leaves the root alone. -/
  root_of_reaches : ∀ {w w' : W} {t : Table Ty} {R : Registry}, Reaches w w' →
    Root w t R → Root w' t R
  /-- The root knows the declared data types. -/
  registry_of_root : ∀ {w : W} {t : Table Ty} {R : Registry}, Root w t R → registry w = R
  /-- The names of the root mean what they are bound to. -/
  env_of_root : ∀ {w : W} {t : Table Ty} {R : Registry}, Root w t R → Env w 0 t.get?
  /-- The scopes of a machine stand in one tree. -/
  rooted : ∀ {w : W} {m : Machine}, Holds w m → m.scopes.Rooted
  /-- The root binds no other names. -/
  names_of_root : ∀ {w : W} {m : Machine} {t : Table Ty} {R : Registry}, Holds w m → Root w t R →
    (m.scopes.bindings 0).names = t.names
  /-- A constructor is a function that builds its data type. -/
  val_constructor : ∀ {w : W} {name : String} {info : ConstructorInfo},
    (registry w).constructor? name = some info →
      Val w (.constructor name info.arity) (.arrow info.fields (.data info.data))
  /-- The root may bind a new name. -/
  exists_define : ∀ {w : W} {m : Machine} {t : Table Ty} {R : Registry} {name : String} {v : Value}
    {ty : Ty}, Holds w m → Root w t R → Val w v ty → t.get? name = none →
      Text.isQuoted name = false →
      ∃ w' ≥ w, Holds w' { m with scopes := m.scopes.write 0 name v } ∧ Root w' (t.insert name ty) R
  /-- An assignment that is allowed may give a name another value of its type. -/
  exists_assign : ∀ {w : W} {m : Machine} {t : Table Ty} {R : Registry} {name : String} {v : Value}
    {ty : Ty} {nameSpan span : Option Span} {value : Expr},
      Allows (.assign (.var name nameSpan) value span) → Holds w m → Root w t R → Val w v ty →
      t.get? name = some ty →
      ∃ w' ≥ w, Holds w' { m with scopes := m.scopes.write 0 name v } ∧ Root w' t R
  /-- A declaration that is allowed may add a data type. -/
  exists_declare : ∀ {w : W} {m : Machine} {t : Table Ty} {R R' : Registry} {name : String}
    {constructors : List ConstructorDecl} {span : Option Span},
      Allows (.data name constructors span) → Holds w m → Root w t R →
      outcome (Registry.declare name (constructors.map fun c => (c.name, c.fields))) R =
        (.ok (), R') →
      ∃ w' ≥ w, Holds w' { m with scopes := m.scopes.withRegistry R' } ∧ Root w' t R'

/-- `Run.declare` ends as `Forest.declare` does in the scopes. -/
theorem Run.outcome_declare_of {s : ScopeId} {name : String}
    {constructors : List (String × List Ty)} {m : Machine} {r : Except LangError Unit}
    {scopes : Forest Value}
    (h : outcome (Forest.declare s name constructors) m.scopes = (r, scopes)) :
    outcome (Run.declare s name constructors) m = (r.mapError .error, { m with scopes }) := by
  rw [Run.declare, outcome_adapt, outcome_onPart_eq.mpr ⟨scopes, h, rfl⟩]

/-- `Run.declare` that succeeds puts new scopes in place of the old ones. -/
theorem Run.outcome_declare_eq_ok {s : ScopeId} {name : String}
    {constructors : List (String × List Ty)} {m m' : Machine} {u : Unit} :
    outcome (Run.declare s name constructors) m = (.ok u, m') ↔
      ∃ scopes, outcome (Forest.declare s name constructors) m.scopes = (.ok u, scopes) ∧
        m' = { m with scopes } := by
  rw [Run.declare, outcome_adapt_eq_ok, outcome_onPart_eq]

namespace ProgramModel

variable {W : Type} [Preorder W] {M : ProgramModel W} {w : W} {t : Table Ty} {R : Registry}

/-! ### Single steps -/

theorem outcome_update_of_ok {f : Forest Value → Except LangError (Forest Value)} {m : Machine}
    {scopes : Forest Value} (h : f m.scopes = .ok scopes) :
    outcome (Run.update f) m = (.ok ⟨⟩, { m with scopes }) := by
  rw [Run.update, outcome_bind_of_ok (outcome_get m), h]
  rfl

theorem leads_log (hroot : M.Root w t R) (event : Event) :
    M.free.Leads w (fun _ => Run.log event) fun w' _ => M.Root w' t R := by
  have hlog : M.Leads w (fun _ => Run.log event) fun _ _ => True := .log event
  exact (hlog.imp fun w' hw _ _ => M.root_of_reaches hw hroot).free

theorem hasLocal_eq_false {m : Machine} (hm : M.Holds w m) (hroot : M.Root w t R) {name : String}
    (hname : t.get? name = none) : m.scopes.hasLocal 0 name = false := by
  rw [Forest.hasLocal, Table.contains_eq_false, Table.get?_eq_none_iff, M.names_of_root hm hroot]
  exact Table.get?_eq_none_iff.mp hname

/-- `set` of a new name at the root, to a value of its type. -/
theorem leads_set (hroot : M.Root w t R) {name : String} {v : Value} {ty : Ty} (hv : M.Val w v ty)
    (hname : t.get? name = none) (hquoted : Text.isQuoted name = false) :
    M.free.Leads w (fun _ => Run.update (·.set 0 name v)) fun w' _ =>
      M.Root w' (t.insert name ty) R := by
  refine .of_ok fun m hm => ?_
  obtain ⟨w', hw', hm', hroot'⟩ := M.exists_define hm hroot hv hname hquoted
  have hset : m.scopes.set 0 name v = .ok (m.scopes.write 0 name v) := by
    rw [Forest.set, M.hasLocal_eq_false hm hroot hname, if_neg Bool.false_ne_true]
  exact ⟨_, _, w', outcome_update_of_ok hset, hw', hm', hroot'⟩

/-- `update` of a name of the root, to another value of its type. -/
theorem leads_update (hroot : M.Root w t R) {name : String} {v : Value} {ty : Ty}
    {nameSpan span : Option Span} {value : Expr}
    (hallows : M.Allows (.assign (.var name nameSpan) value span)) (hv : M.Val w v ty)
    (hname : t.get? name = some ty) :
    M.free.Leads w (fun _ => Run.update (·.update 0 name v)) fun w' _ => M.Root w' t R := by
  refine .of_ok fun m hm => ?_
  obtain ⟨w', hw', hm', hroot'⟩ := M.exists_assign hallows hm hroot hv hname
  have hbound : (m.scopes.bindings 0).contains name = true := by
    rw [Table.contains_iff, M.names_of_root hm hroot, ← Table.contains_iff, Table.contains, hname]
    rfl
  have howner : m.scopes.owner? 0 name = some 0 := by
    rw [Forest.owner?, (M.rooted hm).path_root, List.find?_cons, hbound]
  have hupdate : m.scopes.update 0 name v = .ok (m.scopes.write 0 name v) := by
    rw [Forest.update, howner]
  exact ⟨_, _, w', outcome_update_of_ok hupdate, hw', hm', hroot'⟩

/-- The function that a constructor is bound to has this type. -/
def constructorArrow (owner : String) (c : ConstructorDecl) : Ty :=
  .arrow c.fields (.data owner)

/-- For the checker, a constructor with fields is a function as well: `constructorTy` is
`constructorArrow`. -/
theorem constructorTy_eq_arrow {d : Declared} {owner : String} {cs : List ConstructorDecl}
    {span : Option Span} (hnodup : (cs.map ConstructorDecl.name).Nodup) {c : ConstructorDecl}
    (hc : c ∈ cs) (h : (d.after (.data owner cs span)).isNullary c.name = false) :
    Check.constructorTy owner c = constructorArrow owner c := by
  have harity : (d.after (.data owner cs span)).constructors.get? c.name =
      some c.fields.length := by
    rw [Declared.constructors_after]
    exact Table.get?_bindAll_of_mem hnodup hc d.constructors
  rw [Declared.isNullary, harity, decide_eq_false_iff_not, Option.some.injEq,
    List.length_eq_zero_iff, ← List.isEmpty_iff] at h
  rw [Check.constructorTy, if_neg h, constructorArrow]

/-- `set` of the constructors of a data type at the root, one after the other. -/
theorem leads_set_constructors (hroot : M.Root w t R) {owner : String} {cs : List ConstructorDecl}
    (hinfo : ∀ c ∈ cs, R.constructor? c.name = some ⟨c.name, owner, c.fields⟩)
    (hnew : ∀ c ∈ cs, t.get? c.name = none) (hnodup : (cs.map ConstructorDecl.name).Nodup)
    (hquoted : ∀ c ∈ cs, Text.isQuoted c.name = false) :
    M.free.Leads w (fun _ => cs.forM fun c =>
        Run.update (·.set 0 c.name (.constructor c.name c.fields.length)))
      fun w' _ => M.Root w' (t.bindAll (constructorArrow owner) cs) R := by
  induction cs generalizing w t with
  | nil => exact .pure hroot
  | cons c cs ih =>
    obtain ⟨hinfoc, hinfo⟩ := List.forall_mem_cons.mp hinfo
    obtain ⟨hnewc, hnew⟩ := List.forall_mem_cons.mp hnew
    obtain ⟨hquotedc, hquoted⟩ := List.forall_mem_cons.mp hquoted
    rw [List.map_cons, List.nodup_cons] at hnodup
    obtain ⟨hmem, hnodup⟩ := hnodup
    rw [← M.registry_of_root hroot] at hinfoc
    have hv : M.Val w (.constructor c.name c.fields.length) (constructorArrow owner c) :=
      M.val_constructor hinfoc
    rw [List.forM]
    refine (leads_set hroot hv hnewc hquotedc).bind fun w₁ _ _ hroot₁ => ?_
    refine ih hroot₁ hinfo (fun c' hc' => ?_) hnodup hquoted
    have hne : c'.name ≠ c.name := fun h => hmem (h ▸ List.mem_map_of_mem hc')
    rw [Table.get?_insert_of_ne hne]
    exact hnew c' hc'

theorem leads_print {P : W → Prop} (h : P w) (line : String) :
    M.free.Leads w (fun _ => (modify (·.print line) : Run Unit)) fun w' _ => P w' :=
  .of_ok fun m hm => ⟨_, m.print line, w, rfl, le_refl w, M.holds_of_scopes_eq hm rfl, h⟩

/-- `Run.declare` of a data type at the root. -/
theorem leads_declare (hroot : M.Root w t R) {name : String} {constructors : List ConstructorDecl}
    {span : Option Span} {R' : Registry} (hallows : M.Allows (.data name constructors span))
    (hdeclare : outcome (Registry.declare name (constructors.map fun c => (c.name, c.fields))) R =
      (.ok (), R')) :
    M.free.Leads w
      (fun _ => Run.declare 0 name (constructors.map fun c => (c.name, c.fields)))
      fun w' _ => M.Root w' t R' := by
  refine .of_ok fun m hm => ?_
  obtain ⟨w', hw', hm', hroot'⟩ := M.exists_declare hallows hm hroot hdeclare
  have hregistry : m.scopes.registry 0 = R := by
    rw [M.registry_eq hm (M.env_of_root hroot), M.registry_of_root hroot]
  rw [← hregistry] at hdeclare
  have hscopes := (M.rooted hm).outcome_declare_eq.mpr ⟨R', hdeclare, rfl⟩
  exact ⟨_, _, w', Run.outcome_declare_eq_ok.mpr ⟨_, hscopes, rfl⟩, hw', hm', hroot'⟩

/-- A data type that the root does not know, with constructors that it does not bind, passes the
check `undeclared`. -/
theorem leads_undeclared (hroot : M.Root w t R) {name : String}
    {constructors : List ConstructorDecl}
    {span : Option Span} (hdata : R.data? name = none)
    (hnew : ∀ c ∈ constructors, t.get? c.name = none) :
    M.free.Leads w (fun _ => Run.withScopes (Execute.undeclared 0 name constructors span))
      fun w' r => r = .ok () ∧ M.Root w' t R := by
  refine .withScopes fun m hm => ⟨?_, hroot⟩
  rw [Execute.undeclared, M.registry_eq hm (M.env_of_root hroot), M.registry_of_root hroot, hdata,
    Option.isSome_none, if_neg Bool.false_ne_true]
  refine forM_eq_ok.mpr fun c hc => ?_
  rw [M.hasLocal_eq_false hm hroot (hnew c hc), if_neg Bool.false_ne_true]

/-- `Execute.data` leads to a root that binds the constructors to values of their types. -/
theorem leads_data (hroot : M.Root w t R) {name : String} {constructors : List ConstructorDecl}
    {span : Option Span} {R' : Registry} (hallows : M.Allows (.data name constructors span))
    (hdeclare : outcome (Registry.declare name (constructors.map fun c => (c.name, c.fields))) R =
      (.ok (), R'))
    (hnew : ∀ c ∈ constructors, t.get? c.name = none)
    (hquoted : ∀ c ∈ constructors, Text.isQuoted c.name = false) :
    M.free.Leads w (fun _ => Execute.data 0 name constructors span) fun w' _ =>
      M.Root w' (t.bindAll (constructorArrow name) constructors) R' := by
  have hdata := (Registry.declare_eq_ok hdeclare).1
  have hnames := Registry.nodup_of_declare hdeclare
  have hinfo : ∀ c ∈ constructors, R'.constructor? c.name = some ⟨c.name, name, c.fields⟩ :=
    fun c hc => Registry.constructor?_of_declare_of_mem hdeclare (List.mem_map_of_mem hc)
  simp only [Execute.data]
  refine (leads_undeclared hroot hdata hnew).bind fun w₁ _ r hr => ?_
  obtain ⟨rfl, hroot₁⟩ := hr
  have hok : M.free.Leads w₁ (fun _ => Run.ofExcept (.ok ())) fun w' _ => M.Root w' t R :=
    .ofExcept rfl hroot₁
  refine hok.bind fun w₂ _ _ hroot₂ => ?_
  refine (leads_declare hroot₂ hallows hdeclare).bind fun w₃ _ _ hroot₃ => ?_
  refine (leads_set_constructors hroot₃ hinfo hnew hnames hquoted).bind fun w₄ _ _ hroot₄ => ?_
  exact leads_log hroot₄ _

/-! ### Statements -/

/-- The root of the machines of the world is as the context says. -/
structure Follows (M : ProgramModel W) (d : Declared) (Γ : Context) (w : W) : Prop where
  /-- Statements are checked in the outermost level. -/
  outer_eq : Γ.outer = []
  /-- The root binds the names of the context. What a constructor without fields is bound to has
  another type for the checker. -/
  root : ∃ t, M.Root w t Γ.registry ∧ t.names = Γ.here.names ∧
    ∀ name, d.isNullary name = false → t.get? name = Γ.here.get? name
  /-- Only bound names are constructors. -/
  constructors_bound : ∀ name, Γ.here.get? name = none → d.constructors.get? name = none

namespace Follows

variable {d : Declared} {Γ Γ' : Context}

/-- Evaluating an expression leads to a value of the type that `inferWith` has found, and leaves the
root alone. -/
theorem leads_evaluate {recur : ℕ → Evaluator} (hsound : ∀ e, M.Sound recur e) {e : Expr}
    (he : e.Readable d) (houter : Γ.outer = []) (hroot : M.Root w t Γ.registry)
    (hlook : ∀ name, d.isNullary name = false → t.get? name = Γ.here.get? name) {ty : Ty}
    (hty : Γ.inferWith Ty.agrees e = .ok ty) :
    M.free.Leads w (fun n => recur n 0 e) fun w' v => M.Val w' v ty ∧ M.Root w' t Γ.registry := by
  have hlook' : ∀ name, d.isNullary name = false → t.get? name = Γ.get? name := fun name hname => by
    rw [hlook name hname, Chain.get?_of_outer_eq houter]
  have htyped := (Expr.inferWith_eq_ok_iff he hlook').mp hty
  have hR : Γ.registry ≤ M.registry w := by
    rw [M.registry_of_root hroot]
    exact Γ.registry.le_refl
  have hleads := hsound e htyped hR (M.env_of_root hroot)
  exact (hleads.imp fun w' hw v hv => ⟨hv, M.root_of_reaches hw hroot⟩).free

end Follows

/-- `Execute.stmt` follows checking: where the statement `Checks`, running it leads to a world that
`Follows` the new context. -/
theorem leads_stmt {depth : ℕ → ℕ} (hsound : ∀ e, M.Sound (fun n => evaluate (depth n)) e)
    {d : Declared} {Γ Γ' : Context} {s : Stmt} (hs : s.Readable d)
    (hcheck : s.Checks Ty.agrees Γ Γ')
    (hquoted : ∀ name ∈ s.binds, Text.isQuoted name = false) (hallows : M.Allows s)
    (h : M.Follows d Γ w) :
    M.free.Leads w (fun n => Execute.stmt (depth n) 0 s) fun w' _ =>
      M.Follows (d.after s) Γ' w' := by
  have hbound := hcheck.constructors_bound h.constructors_bound
  have hstays : ∀ name, (d.after s).isNullary name = false → d.isNullary name = false :=
    fun _ hname => hcheck.isNullary_eq_false h.constructors_bound hname
  obtain ⟨houter, ⟨t, hroot, hnames, hlook⟩, -⟩ := h
  have hnew {name : String} (hname : Γ.here.get? name = none) : t.get? name = none := by
    rw [Table.get?_eq_none_iff, hnames]
    exact Table.get?_eq_none_iff.mp hname
  simp only [Execute.stmt.eq_def]
  refine Frame.Leads.located ?_ s.span
  cases hcheck with
  | @define name value span ty hvalue hname =>
    cases hs with
    | define _ hread =>
      refine (leads_log hroot _).bind fun w₁ _ _ hroot₁ => ?_
      refine (Follows.leads_evaluate hsound hread houter hroot₁ hlook hvalue).bind
        fun w₂ _ v hv => ?_
      obtain ⟨hv, hroot₂⟩ := hv
      refine (leads_set hroot₂ hv (hnew hname) (hquoted name List.mem_cons_self)).imp
        fun w₃ _ _ hroot₃ =>
          ⟨houter, ⟨_, hroot₃, Table.names_insert_congr hnames _ _ _, ?_⟩, hbound⟩
      intro other hother
      rw [Table.get?_insert, Table.get?_insert, hlook other hother]
  | @assign name value nameSpan span ty valueTy hvalue hname hagree =>
    cases hs with
    | assign htarget hread =>
      refine (Follows.leads_evaluate hsound hread houter hroot hlook hvalue).bind
        fun w₁ _ v hv => ?_
      obtain ⟨hv, hroot₁⟩ := hv
      refine (leads_log hroot₁ _).bind fun w₂ hw₂ _ hroot₂ => ?_
      have hv₂ := M.val_mono hw₂ (M.val_agrees (Ty.agrees_symm hagree) hv)
      have htarget : t.get? name = some ty := by
        cases htarget with
        | var _ hself =>
          rw [hlook name (Expr.of_ofAtom_eq_var hself).2,
            ← Chain.get?_of_outer_eq houter, hname]
      exact (leads_update hroot₂ hallows hv₂ htarget).imp fun w₃ _ _ hroot₃ =>
        ⟨houter, ⟨t, hroot₃, hnames, hlook⟩, hbound⟩
  | @print value span ty hvalue =>
    cases hs with
    | print hread =>
      refine (Follows.leads_evaluate hsound hread houter hroot hlook hvalue).bind
        fun w₁ _ v hv => ?_
      obtain ⟨hv, hroot₁⟩ := hv
      refine (leads_log hroot₁ _).bind fun w₂ _ _ hroot₂ => ?_
      exact leads_print ⟨houter, ⟨t, hroot₂, hnames, hlook⟩, hbound⟩ v.display
  | @data name constructors span R hfree hfields hdeclare =>
    have hquoted : ∀ c ∈ constructors, Text.isQuoted c.name = false :=
      fun c hc => hquoted c.name (List.mem_map_of_mem hc)
    have hnodup := Registry.nodup_of_declare hdeclare
    refine (leads_data hroot hallows hdeclare (fun c hc => hnew (hfree c hc)) hquoted).imp
      fun w₁ _ _ hroot₁ => ⟨houter, ⟨_, hroot₁, Table.names_bindAll_congr hnames _ _ _, ?_⟩, hbound⟩
    intro other hother
    refine Table.get?_bindAll_congr (hlook other ?_) fun c hc hname => ?_
    · exact hstays other hother
    · rw [← hname] at hother
      exact (constructorTy_eq_arrow hnodup hc hother).symm

/-- `Execute.program` follows checking, statement by statement. -/
theorem leads_program (depth : ℕ → ℕ) (hsound : ∀ e, M.Sound (fun n => evaluate (depth n)) e)
    {d : Declared} {Γ Γ' : Context} {p : Program} (hp : p.Readable d)
    (hcheck : p.Checks Ty.agrees Γ Γ')
    (hquoted : ∀ s ∈ p, ∀ name ∈ s.binds, Text.isQuoted name = false)
    (hallows : ∀ s ∈ p, M.Allows s) (h : M.Follows d Γ w) :
    M.free.Leads w (fun n => Execute.program (depth n) 0 p) fun w' _ =>
      M.Follows (p.foldl Declared.after d) Γ' w' := by
  simp only [Execute.program]
  induction hcheck generalizing d w with
  | nil => exact .pure h
  | cons hs _ ih =>
    obtain ⟨hquoteds, hquoted⟩ := List.forall_mem_cons.mp hquoted
    obtain ⟨hallowss, hallows⟩ := List.forall_mem_cons.mp hallows
    simp only [List.forM]
    exact (leads_stmt hsound hp.1 hs hquoteds hallowss h).bind fun w₁ _ _ h₁ =>
      ih hp.2 hquoted hallows h₁

/-! ### The beginning and the names of the root -/

/-- Before the first statement the root `Follows` the context. -/
theorem follows_start {builtins recording : Bool}
    (hroot : M.Root w (Session.start builtins recording).context.here {}) :
    M.Follows {} (Session.start builtins recording).context w where
  outer_eq := rfl
  root := ⟨_, hroot, rfl, fun _ _ => rfl⟩
  constructors_bound _ _ := rfl

/-- A name of the context that is no constructor without fields is bound at the root to a value of
its type, also in later worlds. -/
theorem Follows.exists_value {d : Declared} {Γ : Context} (h : M.Follows d Γ w)
    {name : String} {ty : Ty}
    (hname : Γ.here.get? name = some ty) (hnullary : d.isNullary name = false) {w' : W}
    (hw : w ≤ w')
    {m : Machine} (hm : M.Holds w' m) :
    ∃ v, m.scopes.get? 0 name = some v ∧ M.Val w' v ty := by
  obtain ⟨t, hroot, -, hlook⟩ := h.root
  have henv := M.env_mono hw (M.env_of_root hroot)
  exact M.get?_eq_some hm henv ((hlook name hnullary).trans hname)

end ProgramModel

/-! ### Accepted programs -/

/-- The program checks in the session and leaves the context `Γ`, also if the branches of choices
must have types that agree, and it binds no quoted names. -/
structure Program.Accepted (p : Program) (σ : Session) (Γ : Context) : Prop where
  /-- The program checks. -/
  checks : outcome (Check.program p) σ.context = (.ok (), Γ)
  /-- The program checks if the branches of choices must have types that agree. -/
  strict : (outcome (p.forM (Check.stmtWith Ty.agrees)) σ.context).1 = .ok ()
  /-- The program binds no quoted names. -/
  unquoted : ∀ s ∈ p, ∀ name ∈ s.binds, Text.isQuoted name = false

/-- Whether the program is accepted in the session. -/
def Program.accepts (p : Program) (σ : Session) : Bool :=
  (outcome (Check.program p) σ.context).1.isOk &&
    (outcome (p.forM (Check.stmtWith Ty.agrees)) σ.context).1.isOk &&
    p.all fun s => s.binds.all fun name => !Text.isQuoted name

theorem isOk_iff {ε : Type} {r : Except ε Unit} : r.isOk = true ↔ r = .ok () := by
  cases r with
  | error e => exact iff_of_false Bool.false_ne_true (nomatch ·)
  | ok u => exact iff_of_true rfl rfl

/-- `accepts` decides whether a program is `Accepted` and leaves some context. -/
theorem Program.accepts_iff {p : Program} {σ : Session} :
    p.accepts σ = true ↔ ∃ Γ, p.Accepted σ Γ := by
  rw [Program.accepts, Bool.and_eq_true, Bool.and_eq_true, isOk_iff, isOk_iff]
  simp only [List.all_eq_true, Bool.not_eq_true']
  constructor
  · rintro ⟨⟨hchecks, hstrict⟩, hunquoted⟩
    exact ⟨_, Prod.ext hchecks rfl, hstrict, hunquoted⟩
  · rintro ⟨Γ, h⟩
    exact ⟨⟨congrArg Prod.fst h.checks, h.strict⟩, h.unquoted⟩

/-- `Accepted` by the stricter rule, a program leaves the same context by `Ty.agrees`. -/
theorem Program.Accepted.checks_agrees {p : Program} {σ : Session} {Γ : Context}
    (h : p.Accepted σ Γ)
    {d : Declared} (hp : p.Readable d) : p.Checks Ty.agrees σ.context Γ := by
  have hstrict := Check.forM_stmtWith_eq_ok.mp (Prod.ext h.strict rfl)
  have hlax := hstrict.mono hp fun _ _ => Ty.sameTag_of_agrees
  rwa [(Check.forM_stmtWith_eq_ok.mp h.checks).unique hlax]

end Casewise
