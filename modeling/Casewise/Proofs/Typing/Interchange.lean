import Casewise.Proofs.Scope.Registry
import Casewise.Proofs.Typing.Likeness

/-!
# Types that agree may stand for each other

A definition gives a name the type of a constructor where a parameter would have its data type. The
checker treats both alike from then on. In contexts that differ only in such types, expressions have
types that agree or fail with the same error, word for word and in the same place, and statements
lead to contexts that again differ only in such types.

## Main definitions

* `Context.Agrees`: contexts that bind the same names to types that agree.

## Main statements

* `Context.likeness_agrees`: contexts that agree are alike.
* `Context.Agrees.cannot_tell_apart`: the checker cannot tell types apart that agree.
-/

namespace Casewise

variable {Γ Γ' : Context}

/-- The contexts bind the same names to types that agree, level by level, and the same data types
are declared in them. -/
structure Context.Agrees (Γ Γ' : Context) : Prop where
  /-- Level by level, the same names are bound to types that agree. -/
  levels : List.Forall₂ (fun t u : Table Ty => ∀ name,
    Option.Rel (fun a b => a.agrees b = true) (t.get? name) (u.get? name)) Γ.levels Γ'.levels
  /-- The same data types are declared. -/
  data?_eq : ∀ name, Γ'.registry.data? name = Γ.registry.data? name
  /-- The same constructors are declared. -/
  constructor?_eq : ∀ name, Γ'.registry.constructor? name = Γ.registry.constructor? name

namespace Context

/-- Where `get?` finds types that agree level by level, names have types that agree. -/
theorem findSome?_rel {ts us : List (Table Ty)} (h : List.Forall₂ (fun t u : Table Ty => ∀ name,
      Option.Rel (fun a b => a.agrees b = true) (t.get? name) (u.get? name)) ts us)
    (name : String) :
    Option.Rel (fun a b => a.agrees b = true) (ts.findSome? (·.get? name))
      (us.findSome? (·.get? name)) := by
  induction h with
  | nil => exact .none
  | @cons t u _ _ htu _ ih =>
    rw [List.findSome?_cons, List.findSome?_cons]
    have hname := htu name
    generalize t.get? name = a, u.get? name = b at hname ⊢
    cases hname with
    | none => exact ih
    | some hab => exact .some hab

/-- Both registries declare the same data types and the same constructors. -/
def SameRegistry (R R' : Registry) : Prop :=
  (∀ name, R'.data? name = R.data? name) ∧ ∀ name, R'.constructor? name = R.constructor? name

/-- `Registry.declare` goes in step if the same data types and constructors are declared. -/
theorem declare_mirrors (name : String) (constructors : List (String × List Ty)) :
    Mirrors Eq SameRegistry (fun _ _ => True) (Registry.declare name constructors)
      (Registry.declare name constructors) := by
  have henlist (infos infos' : List ConstructorInfo) (c : String × List Ty) (h : infos = infos') :
      Mirrors Eq SameRegistry Eq (Registry.enlist name infos c)
        (Registry.enlist name infos' c) := by
    subst h
    rw [Registry.enlist]
    refine Mirrors.get.bind fun R R' hR => ?_
    rw [hR.2]
    split
    · exact .throw rfl
    · exact .pure rfl
  have hfileType (infos : List ConstructorInfo) (R R' : Registry) (hR : SameRegistry R R') :
      SameRegistry (R.fileType name infos) (R'.fileType name infos) := by
    refine ⟨fun other => ?_, hR.2⟩
    rw [Registry.data?, Registry.data?, Registry.fileType, Registry.fileType, Table.get?_insert,
      Table.get?_insert]
    exact congrArg (ite _ _) (hR.1 other)
  have hfileConstructor (info : ConstructorInfo) (R R' : Registry) (hR : SameRegistry R R') :
      SameRegistry (R.fileConstructor info) (R'.fileConstructor info) := by
    refine ⟨hR.1, fun other => ?_⟩
    rw [Registry.constructor?, Registry.constructor?, Registry.fileConstructor,
      Registry.fileConstructor, Table.get?_insert, Table.get?_insert]
    exact congrArg (ite _ _) (hR.2 other)
  rw [Registry.declare]
  refine Mirrors.get.bind fun R R' hR => ?_
  rw [hR.1]
  split
  · exact .throw rfl
  · refine (Mirrors.foldlM henlist constructors rfl).bind fun infos infos' hinfos => ?_
    subst hinfos
    refine (Mirrors.modify (hfileType infos)).bind fun _ _ _ => ?_
    exact .forM (List.forall₂_same.mpr fun _ _ => rfl) fun info info' hinfo => by
      subst hinfo
      exact .modify (hfileConstructor info)

/-- Contexts that agree are alike: `Context.Agrees` is a `Likeness`. -/
theorem likeness_agrees :
    Context.Likeness (fun a b : Ty => a.agrees b = true) Context.Agrees where
  get?_rel h name := findSome?_rel h.levels name
  hasLocal_eq {Γ Γ'} h name := by
    obtain ⟨hhere, -⟩ := List.forall₂_cons.mp h.levels
    have hname := hhere name
    rw [Chain.hasLocal, Chain.hasLocal, Table.contains, Table.contains]
    generalize Γ.here.get? name = a, Γ'.here.get? name = b at hname ⊢
    cases hname <;> rfl
  data?_eq h := h.data?_eq
  constructor?_eq h := h.constructor?_eq
  extend h _ _ htu := ⟨.cons htu.get?_rel h.levels, h.data?_eq, h.constructor?_eq⟩
  insert {Γ Γ'} h name a b hab := by
    obtain ⟨hhere, houter⟩ := List.forall₂_cons.mp h.levels
    refine ⟨.cons (fun other => ?_) houter, h.data?_eq, h.constructor?_eq⟩
    rw [Table.get?_insert, Table.get?_insert]
    split
    · exact .some hab
    · exact hhere other
  declare name constructors :=
    (declare_mirrors name constructors).onPart (fun _ _ h => ⟨h.data?_eq, h.constructor?_eq⟩)
      fun _ _ _ _ h hR => ⟨h.levels, hR.1, hR.2⟩

theorem Agrees.refl (Γ : Context) : Γ.Agrees Γ where
  levels := List.forall₂_same.mpr fun t _ name => by
    cases t.get? name with
    | none => exact .none
    | some ty => exact .some ty.agrees_refl
  data?_eq _ := rfl
  constructor?_eq _ := rfl

/-- The checker cannot tell types apart that agree. In contexts that agree (`Context.Agrees`), an
expression has types that agree or fails with the same error, and a statement checks in both or
fails with the same error in both; either way it leaves contexts that agree again. -/
theorem Agrees.cannot_tell_apart (h : Γ.Agrees Γ') (e : Expr) (s : Stmt) :
    Alongside Eq (fun a b => a.agrees b = true) (Γ.infer e) (Γ'.infer e) ∧
    Alongside Eq (fun _ _ => True) (outcome (Check.stmt s) Γ).1 (outcome (Check.stmt s) Γ').1 ∧
    (outcome (Check.stmt s) Γ).2.Agrees (outcome (Check.stmt s) Γ').2 := by
  have hexpr : e.mapSpans id id = e := Expr.mapSpans_eq_self (fun _ _ => rfl) fun _ _ => rfl
  have hstmt : s.mapSpans id id = s := Stmt.mapSpans_eq_self (fun _ _ => rfl) fun _ _ => rfl
  have hsame (e e' : LangError) (he : LangError.Moved id e e') : e = e' := by
    rw [he, LangError.mapSpan, Option.map_id_fun, id]
  have hinfer := inferWith_alongside (f := id) Ty.likeness_agrees likeness_agrees
    Ty.sameTag_congr e h
  have hcheck := Check.stmtWith_mirrors (f := id) Ty.likeness_agrees likeness_agrees
    Ty.sameTag_congr
    s Γ Γ' h
  rw [hexpr] at hinfer
  rw [hstmt] at hcheck
  exact ⟨hinfer.imp hsame fun _ _ h => h, hcheck.1.imp hsame fun _ _ h => h, hcheck.2⟩

/-- A context with lists of numbers. -/
private def withLists : Context :=
  (outcome (Check.stmt (.data "List"
    [⟨"Nil", [], none⟩, ⟨"Cons", [.nat, .data "List"], none⟩] none)) {}).2

/-- The first member of the list `l`, or zero. -/
private def firstOrZero : Expr :=
  .cases (.var "l" none)
    [.construct "Cons" [.binding "h" none, .wildcard none] none, .construct "Nil" [] none]
    [.var "h" none, .number 0 none] none

/-- A list that is known to have one member cannot be told apart from any list, in `firstOrZero`. -/
theorem Agrees.cannot_tell_apart_list : ∃ Γ Γ' : Context,
    Γ.get? "l" = some (.construct "Cons" [.nat, .construct "Nil" [] "List"] "List") ∧
    Γ'.get? "l" = some (.data "List") ∧ Γ.Agrees Γ' ∧
    Alongside Eq (fun a b => a.agrees b = true) (Γ.infer firstOrZero) (Γ'.infer firstOrZero) ∧
    Alongside Eq (fun _ _ => True) (outcome (Check.stmt (.define "n" firstOrZero none)) Γ).1
      (outcome (Check.stmt (.define "n" firstOrZero none)) Γ').1 ∧
    (outcome (Check.stmt (.define "n" firstOrZero none)) Γ).2.Agrees
      (outcome (Check.stmt (.define "n" firstOrZero none)) Γ').2 := by
  let known : Table Ty :=
    .ofList [("l", .construct "Cons" [.nat, .construct "Nil" [] "List"] "List")]
  let any : Table Ty := .ofList [("l", .data "List")]
  have hlist : Table.Alike (fun a b : Ty => a.agrees b = true) known any :=
    .singleton (by decide) "l"
  have h : Context.Agrees (withLists.extend known) (withLists.extend any) :=
    likeness_agrees.extend (Agrees.refl withLists) hlist
  exact ⟨_, _, by decide, by decide, h,
    h.cannot_tell_apart firstOrZero (.define "n" firstOrZero none)⟩

end Context

end Casewise
