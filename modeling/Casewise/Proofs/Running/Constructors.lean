import Casewise.Proofs.Running.Root
import Casewise.Proofs.Value.Inhabits

/-!
# Constructors as names

A data declaration gives the name of each constructor two meanings: checking binds it to a type, and
executing binds it to a value. Either way the name stands for something that builds data, but the
two do not go by the same rule. The value is a function whatever the number of fields, while the
type is a function type only if there are fields, and is the data type itself if there are none. So
the value belongs to the type exactly if the constructor has fields.

## Main definitions

* `Value.Maps`: functions that take arguments of given types to results of a given type.
* `ConstructorDecl.Meaning`: what the name of a constructor means to the checker and at run time.

## Main statements

* `Execute.constructor_meaning`: what a data declaration makes of its constructors, in any context
  and any scope.
-/

namespace Casewise

/-- Called with arguments of the types `inputs`, the function `f` gives a result of the type
`output` and leaves the machine alone. -/
def Value.Maps (R : Registry) (f : Value) (inputs : List Ty) (output : Ty) : Prop :=
  ∀ (recur : Evaluator) (args : List Value) (head : Expr) (span : Option Span) (m : Machine),
    List.Forall₂ (Value.Inhabits R) args inputs →
      ∃ v, outcome (Evaluator.call recur f args head span) m = (.ok v, m) ∧ v.Inhabits R output

/-- What the name of the constructor `c` of the data type `owner` means in a context and in a scope
of a machine. -/
structure ConstructorDecl.Meaning (c : ConstructorDecl) (owner : String) (Γ : Context)
    (m : Machine) (s : ScopeId) : Prop where
  /-- The context binds the name to its type. -/
  type : Γ.here.get? c.name = some (Check.constructorTy owner c)
  /-- The scope binds the name to its value. -/
  value : (m.scopes.bindings s).get? c.name = some (Execute.constructorValue c)
  /-- The name has this type as an expression. -/
  infer : ∀ span, Γ.infer (.var c.name span) = .ok (Check.constructorTy owner c)
  /-- The name has this value as an expression. -/
  evaluate : ∀ depth span, outcome (evaluate (depth + 1) s (.var c.name span)) m =
    (.ok (Execute.constructorValue c), m.log (.evaluating (.var c.name span)))
  /-- Called with values of the types of the fields, the value builds data from them. -/
  call : ∀ (recur : Evaluator) (args : List Value) (head : Expr) (span : Option Span)
    (m' : Machine), List.Forall₂ (Value.Inhabits (m.scopes.registry s)) args c.fields →
    outcome (Evaluator.call recur (Execute.constructorValue c) args head span) m' =
        (.ok (.constructed c.name args), m') ∧
      (Value.constructed c.name args).Inhabits (m.scopes.registry s) (.data owner)
  /-- The value belongs to the type exactly if there are fields. -/
  hasTy_iff : (Execute.constructorValue c).HasTy (m.scopes.registry s)
    (Value.Maps (m.scopes.registry s)) (Check.constructorTy owner c) ↔ c.fields ≠ []

/-! ### Calling constructors -/

section Calling

variable {R : Registry} {owner : String} {c : ConstructorDecl}

theorem ConstructorDecl.constructorTy_of_ne_nil (hfields : c.fields ≠ []) :
    Check.constructorTy owner c = .arrow c.fields (.data owner) := by
  rw [Check.constructorTy, if_neg (mt List.isEmpty_iff.mp hfields)]

/-- Data built from fields of the declared types `Inhabits` the data type. -/
theorem ConstructorDecl.inhabits_constructed
    (hc : R.constructor? c.name = some ⟨c.name, owner, c.fields⟩) {args : List Value}
    (hargs : List.Forall₂ (Value.Inhabits R) args c.fields) :
    (Value.constructed c.name args).Inhabits R (.data owner) :=
  .constructed hc rfl (Value.haveTys_iff.mpr hargs)

/-- `call` of a constructor with as many arguments as it has fields builds data from them. -/
theorem Evaluator.outcome_call_constructor (name : String) {arity : ℕ} {args : List Value}
    (hlength : args.length = arity) (recur : Evaluator) (head : Expr) (span : Option Span)
    (m : Machine) : outcome (call recur (.constructor name arity) args head span) m =
      (.ok (.constructed name args), m) := by
  have hcount : checkCount ("'" ++ name ++ "'") arity args = .ok () := by
    rw [checkCount, hlength, if_pos rfl]
  rw [call, hcount]
  rfl

/-- The value of a constructor `Maps` fields of the declared types to data. -/
theorem ConstructorDecl.maps (hc : R.constructor? c.name = some ⟨c.name, owner, c.fields⟩) :
    (Execute.constructorValue c).Maps R c.fields (.data owner) := by
  intro recur args head span m hargs
  exact ⟨_, Evaluator.outcome_call_constructor c.name hargs.length_eq recur head span m,
    inhabits_constructed hc hargs⟩

/-- The value of a constructor belongs to its type exactly if it has fields: without fields, the
type is the data type, and the value is a function all the same. -/
theorem ConstructorDecl.hasTy_iff (hc : R.constructor? c.name = some ⟨c.name, owner, c.fields⟩) :
    (Execute.constructorValue c).HasTy R (Value.Maps R) (Check.constructorTy owner c) ↔
      c.fields ≠ [] := by
  constructor
  · intro h hfields
    rw [Check.constructorTy, hfields, List.isEmpty_nil, if_pos rfl] at h
    cases h
  · intro hfields
    rw [constructorTy_of_ne_nil hfields]
    exact .function rfl (maps hc)

end Calling

/-! ### Data declarations -/

namespace Execute

variable {Γ Γ' : Context} {m m' : Machine} {s : ScopeId}

theorem outcome_evaluate_var_of_get? {name : String} {v : Value}
    (hname : m.scopes.get? s name = some v) (depth : ℕ) (span : Option Span) :
    outcome (evaluate (depth + 1) s (.var name span)) m =
      (.ok v, m.log (.evaluating (.var name span))) := by
  have hlog : outcome (Run.log (.evaluating (.var name span))) m =
      (.ok ⟨⟩, m.log (.evaluating (.var name span))) := rfl
  have hlooked : outcome (Run.withScopes (·.get? s name)) (m.log (.evaluating (.var name span))) =
      (.ok (m.scopes.get? s name), m.log (.evaluating (.var name span))) := rfl
  rw [hname] at hlooked
  rw [evaluate, outcome_bind_of_ok hlog, Run.located, outcome_adapt, Evaluator.step,
    outcome_bind_of_ok hlooked]
  rfl

/-- `evaluate` of a name that a scope binds itself has its value there. -/
theorem outcome_evaluate_var {name : String} {v : Value}
    (hname : (m.scopes.bindings s).get? name = some v) (depth : ℕ) (span : Option Span) :
    outcome (evaluate (depth + 1) s (.var name span)) m =
      (.ok v, m.log (.evaluating (.var name span))) := by
  refine outcome_evaluate_var_of_get? ?_ depth span
  rw [Forest.bindings] at hname
  rw [Forest.get?, Forest.path]
  cases hscope : m.scopes.scopes[s]? with
  | none =>
    rw [hscope] at hname
    cases hname
  | some scope =>
    rw [hscope] at hname
    rw [List.findSome?_cons, Forest.bindings, hscope, hname]

/-- A `data` declaration that the checker accepts in some context, and that comes to its end in some
scope, gives each of its constructors the type and the value of `ConstructorDecl.Meaning`. -/
theorem constructor_meaning {depth : ℕ} {name : String} {constructors : List ConstructorDecl}
    {span : Option Span} (hs : m.scopes.Live s)
    (hcheck : outcome (Check.stmt (.data name constructors span)) Γ = (.ok (), Γ'))
    (hrun : outcome (stmt depth s (.data name constructors span)) m = (.ok (), m')) :
    ∀ c ∈ constructors, c.Meaning name Γ' m' s := by
  intro c hc
  have htype : Γ'.here.get? c.name = some (Check.constructorTy name c) := by
    cases Check.stmtWith_eq_ok.mp hcheck with
    | data _ _ hdeclare =>
      exact Table.get?_bindAll_of_mem (Registry.nodup_of_declare hdeclare) hc _
  rw [stmt, Run.located, outcome_adapt_eq_ok] at hrun
  obtain ⟨hbindings, -, hdeclare⟩ := bindings_of_data hs hrun
  have hvalue : (m'.scopes.bindings s).get? c.name = some (constructorValue c) := by
    rw [hbindings]
    exact Table.get?_bindAll_of_mem (Registry.nodup_of_declare hdeclare) hc _
  have hknown : (m'.scopes.registry s).constructor? c.name = some ⟨c.name, name, c.fields⟩ :=
    Registry.constructor?_of_declare_of_mem hdeclare
      (List.mem_map_of_mem (f := fun c : ConstructorDecl => (c.name, c.fields)) hc)
  refine ⟨htype, hvalue, fun span => ?_, fun depth span => outcome_evaluate_var hvalue depth span,
    fun recur args head span m₁ hargs => ?_, ConstructorDecl.hasTy_iff hknown⟩
  · have hget : Γ'.get? c.name = some (Check.constructorTy name c) := by
      rw [Chain.get?, Chain.levels, List.findSome?_cons, htype]
    exact Context.inferWith_var_eq_ok.mpr (.inl hget)
  · exact ⟨Evaluator.outcome_call_constructor c.name hargs.length_eq recur head span m₁,
      ConstructorDecl.inhabits_constructed hknown hargs⟩

/-- Lists of numbers: a constructor without fields and one with two. -/
private def listConstructors : List ConstructorDecl :=
  [⟨"Nil", [], none⟩, ⟨"Cons", [.nat, .data "List"], none⟩]

private theorem check_listConstructors :
    outcome (Check.stmt (.data "List" listConstructors none)) (Session.start true).context =
      (.ok (), (outcome (Check.stmt (.data "List" listConstructors none))
        (Session.start true).context).2) := by
  rfl

private theorem run_listConstructors :
    outcome (stmt 0 Machine.root (.data "List" listConstructors none))
        (Session.start true).machine =
      (.ok (), (outcome (stmt 0 Machine.root (.data "List" listConstructors none))
        (Session.start true).machine).2) := by
  rfl

private theorem live_root : (Session.start true).machine.scopes.Live Machine.root :=
  .of_rooted (.newRoot _) Nat.one_pos

/-- The constructors of lists have their meanings, and `Nil` is a function, although its type is
`List`. -/
theorem constructor_meaning_list : ∃ Γ m,
    (∀ c ∈ listConstructors, c.Meaning "List" Γ m Machine.root) ∧
      Γ.here.get? "Nil" = some (.data "List") ∧
      (m.scopes.bindings Machine.root).get? "Nil" = some (.constructor "Nil" 0) := by
  have hall := constructor_meaning live_root check_listConstructors run_listConstructors
  have hnil := hall ⟨"Nil", [], none⟩ List.mem_cons_self
  exact ⟨_, _, hall, hnil.type, hnil.value⟩

/-- So the value of the name of a constructor need not have the type of the name: `Nil` has not. -/
theorem not_constructor_hasTy : ¬ ∀ (depth : ℕ) (name : String)
    (constructors : List ConstructorDecl) (span : Option Span) (Γ Γ' : Context) (m m' : Machine)
    (s : ScopeId), m.scopes.Live s →
    outcome (Check.stmt (.data name constructors span)) Γ = (.ok (), Γ') →
    outcome (stmt depth s (.data name constructors span)) m = (.ok (), m') →
    ∀ c ∈ constructors, ∀ ty v, Γ'.here.get? c.name = some ty →
      (m'.scopes.bindings s).get? c.name = some v →
      v.HasTy (m'.scopes.registry s) (Value.Maps (m'.scopes.registry s)) ty := by
  intro hall
  have hmem : ⟨"Nil", [], none⟩ ∈ listConstructors := List.mem_cons_self
  have h := hall 0 "List" listConstructors none _ _ _ _ Machine.root live_root
    check_listConstructors run_listConstructors _ hmem (.data "List") (.constructor "Nil" 0) rfl rfl
  cases h

end Execute

end Casewise
