import Casewise.Proofs.Pattern.Closed
import Casewise.Proofs.Typing.Statements

/-!
# Kinds of types

A kind of types is closed if the built-in types are of it, and functions, pairs and what
constructors build are of it whenever their parts are. In a context of such a kind names mean types
of the kind, and constructors are declared with such types. Binding names and declaring data types
of the kind keeps the context one of the kind, and matching does not leave it.

## Main definitions

* `Ty.ClosedKind`: closed kinds of types.
* `Context.OfKind`: contexts in which everything is of a kind.

## Main statements

* `Context.OfKind.extend`, `Context.OfKind.insert`, `Context.OfKind.declare`: further bindings and
  declarations of the kind.
* `Context.OfKind.subject_closed`: matching does not leave the kind.
-/

namespace Casewise

/-! ### Closed kinds -/

/-- The built-in types are of the kind, functions and pairs are if and only if their parts are, and
what a constructor builds is if its data type and its arguments are. -/
structure Ty.ClosedKind (K : Ty → Prop) : Prop where
  /-- The built-in types. -/
  builtin : ∀ {name ty}, Ty.builtin? name = some ty → K ty
  /-- Functions. -/
  arrow_iff : ∀ {inputs output}, K (.arrow inputs output) ↔ (∀ ty ∈ inputs, K ty) ∧ K output
  /-- Pairs. -/
  pair_iff : ∀ {first second}, K (.pair first second) ↔ K first ∧ K second
  /-- What a constructor builds. -/
  construct : ∀ {name args owner}, K (.data owner) → (∀ ty ∈ args, K ty) →
    K (.construct name args owner)

/-- All types are a `ClosedKind`. -/
theorem Ty.closedKind_true : Ty.ClosedKind fun _ => True where
  builtin _ := trivial
  arrow_iff := by simp
  pair_iff := by simp
  construct _ _ := trivial

namespace Ty.ClosedKind

variable {K : Ty → Prop}

theorem nat (hK : ClosedKind K) : K .nat :=
  hK.builtin (show Ty.builtin? "Nat" = some _ from rfl)

theorem bool (hK : ClosedKind K) : K .bool :=
  hK.builtin (show Ty.builtin? "Bool" = some _ from rfl)

theorem str (hK : ClosedKind K) : K .str :=
  hK.builtin (show Ty.builtin? "Str" = some _ from rfl)

theorem operand (hK : ClosedKind K) (op : BinaryOp) : K op.operand := by
  rw [BinaryOp.operand]
  split
  · exact hK.nat
  · exact hK.bool

theorem signature (hK : ClosedKind K) (b : Builtin) : K b.signature := by
  rw [Builtin.signature, hK.arrow_iff]
  cases b <;> simp [Builtin.inputs, Builtin.output, hK.nat, hK.bool, hK.str]

theorem constructorTy (hK : ClosedKind K) {own : String} {c : ConstructorDecl}
    (hown : K (.data own))
    (hfields : ∀ ty ∈ c.fields, K ty) : K (Check.constructorTy own c) := by
  rw [Check.constructorTy]
  split
  · exact hown
  · exact hK.arrow_iff.mpr ⟨hfields, hown⟩

end Ty.ClosedKind

/-- `bindAll` of constructors of the kind keeps everything of the kind. -/
theorem Table.All.bindAll {α : Type} {P : α → Prop} {t : Table α} (ht : t.All P)
    {f : ConstructorDecl → α} {cs : List ConstructorDecl} (hcs : ∀ c ∈ cs, P (f c)) :
    (t.bindAll f cs).All P := by
  induction cs generalizing t with
  | nil => exact ht
  | cons c cs ih =>
    obtain ⟨hc, hcs⟩ := List.forall_mem_cons.mp hcs
    exact ih (ht.insert hc c.name) hcs

/-! ### Contexts of a kind -/

/-- Names mean types of the kind, and the declared constructors have fields and build data types of
the kind. -/
structure Context.OfKind (K : Ty → Prop) (Γ : Context) : Prop where
  /-- The types of names. -/
  levels : ∀ level ∈ Γ.levels, level.All K
  /-- The data type that a constructor builds. -/
  data : ∀ {name info}, Γ.registry.constructor? name = some info → K (.data info.data)
  /-- The fields of a constructor. -/
  fields : ∀ {name info}, Γ.registry.constructor? name = some info → ∀ ty ∈ info.fields, K ty

namespace Context

variable {K : Ty → Prop} {Γ : Context}

theorem ofKind_true (Γ : Context) : Γ.OfKind fun _ => True where
  levels _ _ _ _ _ := trivial
  data _ := trivial
  fields _ _ _ := trivial

namespace OfKind

theorem get? (h : Γ.OfKind K) {name : String} {ty : Ty} (hname : Γ.get? name = some ty) : K ty := by
  obtain ⟨level, hlevel, hty⟩ := List.exists_of_findSome?_eq_some hname
  exact h.levels level hlevel name ty hty

/-- A further level of types of the kind keeps `Context.OfKind`. -/
theorem extend (h : Γ.OfKind K) {bound : Table Ty} (hbound : bound.All K) :
    Context.OfKind K (Γ.extend bound) where
  levels := List.forall_mem_cons.mpr ⟨hbound, h.levels⟩
  data := h.data
  fields := h.fields

theorem extend_param (h : Γ.OfKind K) {paramTy : Ty} (hparam : K paramTy) (param : String) :
    Context.OfKind K (Γ.extend (.ofList [(param, paramTy)])) :=
  h.extend (Table.All.empty.insert hparam param)

/-- Matching does not leave the kind: it is `Subject.Closed`. -/
theorem subject_closed (hK : Ty.ClosedKind K) (h : Γ.OfKind K) : Subject.Closed Γ.registry K where
  components {ty first second} hty hparts := by
    cases ty with
    | pair a b =>
      cases hparts
      exact hK.pair_iff.mp hty
    | _ => cases hparts
  fields {ty name info fields} _ hinfo hfields := by
    change (if ty.owner? = some info.data then some info.fields else none) = some fields at hfields
    split at hfields
    · cases hfields
      exact ⟨rfl, h.fields hinfo⟩
    · cases hfields

/-- A definition of the kind keeps `Context.OfKind`. -/
theorem insert (h : Γ.OfKind K) {ty : Ty} (hty : K ty) (name : String) :
    Context.OfKind K { Γ with here := Γ.here.insert name ty } where
  levels :=
    have ⟨hhere, houter⟩ := List.forall_mem_cons.mp h.levels
    List.forall_mem_cons.mpr ⟨hhere.insert hty name, houter⟩
  data := h.data
  fields := h.fields

/-- A data declaration of the kind keeps `Context.OfKind`. -/
theorem declare (hK : Ty.ClosedKind K) (h : Γ.OfKind K) {own : String} {cs : List ConstructorDecl}
    (hown : K (.data own)) (hfields : ∀ c ∈ cs, ∀ ty ∈ c.fields, K ty) {R : Registry}
    (hR : outcome (Registry.declare own (cs.map fun c => (c.name, c.fields))) Γ.registry =
      (.ok (), R)) :
    Context.OfKind K
      { Γ with registry := R, here := Γ.here.bindAll (Check.constructorTy own) cs } := by
  obtain ⟨hhere, houter⟩ := List.forall_mem_cons.mp h.levels
  have hconstructor : ∀ {c info}, R.constructor? c = some info →
      K (.data info.data) ∧ ∀ ty ∈ info.fields, K ty := by
    intro c info hinfo
    rcases (Registry.constructor?_of_declare hR).mp hinfo with hold | ⟨fields, hmem, rfl⟩
    · exact ⟨h.data hold, h.fields hold⟩
    · obtain ⟨decl, hdecl, heq⟩ := List.mem_map.mp hmem
      cases heq
      exact ⟨hown, hfields decl hdecl⟩
  refine ⟨List.forall_mem_cons.mpr ⟨hhere.bindAll fun c hc => ?_, houter⟩,
    fun hinfo => (hconstructor hinfo).1, fun hinfo => (hconstructor hinfo).2⟩
  exact hK.constructorTy hown (hfields c hc)

end OfKind

end Context

end Casewise
