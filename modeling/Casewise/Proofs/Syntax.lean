import Casewise.Program
import Casewise.Sexp
import Casewise.Value

/-!
# Induction over nested syntax

Forms, types, patterns, expressions and values all hold lists of their own kind. These are their
induction principles: what is to be proved is known for every member of such a list.
-/

namespace Casewise

/-- Induction over forms: `atom` and `list`. -/
@[elab_as_elim, induction_eliminator]
theorem Sexp.induction {motive : Sexp → Prop} (atom : ∀ text span, motive (.atom text span))
    (list : ∀ items span, (∀ e ∈ items, motive e) → motive (.list items span)) (e : Sexp) :
    motive e :=
  @Sexp.rec motive (fun es => ∀ e ∈ es, motive e) atom (fun items span h => list items span h)
    (fun _ h => by cases h) (fun _ _ h hs => List.forall_mem_cons.mpr ⟨h, hs⟩) e

/-- Induction over forms where lists of lists are read at once, as the arms of a match are: what is
to be proved is known also for the members of a list in the list. -/
@[elab_as_elim]
theorem Sexp.deepInduction {motive : Sexp → Prop} (atom : ∀ text span, motive (.atom text span))
    (list : ∀ items span, (∀ e ∈ items, motive e) →
      (∀ inner innerSpan, Sexp.list inner innerSpan ∈ items → ∀ e ∈ inner, motive e) →
      motive (.list items span)) (e : Sexp) : motive e := by
  have h : motive e ∧ ∀ inner innerSpan, e = .list inner innerSpan → ∀ e ∈ inner, motive e := by
    induction e with
    | atom text span => exact ⟨atom text span, fun _ _ h => by cases h⟩
    | list items span ih =>
      refine ⟨list items span (fun e he => (ih e he).1) fun inner innerSpan hmem => ?_, ?_⟩
      · exact (ih _ hmem).2 inner innerSpan rfl
      · intro inner innerSpan h e he
        cases h
        exact (ih e he).1
  exact h.1

@[elab_as_elim, induction_eliminator]
theorem Ty.induction {motive : Ty → Prop} (prim : ∀ name, motive (.prim name))
    (arrow : ∀ inputs output, (∀ ty ∈ inputs, motive ty) → motive output →
      motive (.arrow inputs output))
    (pair : ∀ first second, motive first → motive second → motive (.pair first second))
    (data : ∀ name, motive (.data name))
    (construct : ∀ name args owner, (∀ ty ∈ args, motive ty) → motive (.construct name args owner))
    (ty : Ty) : motive ty :=
  @Ty.rec motive (fun tys => ∀ ty ∈ tys, motive ty) prim
    (fun inputs output h h' => arrow inputs output h h') pair data
    (fun name args owner h => construct name args owner h)
    (fun _ h => by cases h) (fun _ _ h hs => List.forall_mem_cons.mpr ⟨h, hs⟩) ty

@[elab_as_elim, induction_eliminator]
theorem Pattern.induction {motive : Pattern → Prop} (wildcard : ∀ span, motive (.wildcard span))
    (binding : ∀ name span, motive (.binding name span))
    (number : ∀ value span, motive (.number value span))
    (boolean : ∀ value span, motive (.boolean value span))
    (string : ∀ value span, motive (.string value span))
    (construct : ∀ name args span, (∀ p ∈ args, motive p) → motive (.construct name args span))
    (pair : ∀ first second span, motive first → motive second → motive (.pair first second span))
    (p : Pattern) : motive p :=
  @Pattern.rec motive (fun ps => ∀ p ∈ ps, motive p) wildcard binding number boolean string
    (fun name args span h => construct name args span h) pair
    (fun _ h => by cases h) (fun _ _ h hs => List.forall_mem_cons.mpr ⟨h, hs⟩) p

/-- Induction over expressions. -/
@[elab_as_elim, induction_eliminator]
theorem Expr.induction {motive : Expr → Prop} (var : ∀ name span, motive (.var name span))
    (number : ∀ value span, motive (.number value span))
    (boolean : ∀ value span, motive (.boolean value span))
    (not : ∀ operand span, motive operand → motive (.not operand span))
    (binary : ∀ op left right span, motive left → motive right →
      motive (.binary op left right span))
    (cond : ∀ condition thenBranch elseBranch span, motive condition → motive thenBranch →
      motive elseBranch → motive (.cond condition thenBranch elseBranch span))
    (lambda : ∀ param paramTy body span, motive body → motive (.lambda param paramTy body span))
    (app : ∀ head args span, motive head → (∀ e ∈ args, motive e) → motive (.app head args span))
    (pair : ∀ first second span, motive first → motive second → motive (.pair first second span))
    (fst : ∀ operand span, motive operand → motive (.fst operand span))
    (snd : ∀ operand span, motive operand → motive (.snd operand span))
    (construct : ∀ name args span, (∀ e ∈ args, motive e) → motive (.construct name args span))
    (cases : ∀ scrutinee patterns branches span, motive scrutinee → (∀ e ∈ branches, motive e) →
      motive (.cases scrutinee patterns branches span))
    (e : Expr) : motive e :=
  @Expr.rec motive (fun es => ∀ e ∈ es, motive e) var number boolean not binary cond lambda
    (fun head args span h hs => app head args span h hs) pair fst snd
    (fun name args span hs => construct name args span hs)
    (fun scrutinee patterns branches span h hs => cases scrutinee patterns branches span h hs)
    (fun _ h => by cases h) (fun _ _ h hs => List.forall_mem_cons.mpr ⟨h, hs⟩) e

@[elab_as_elim, induction_eliminator]
theorem Value.induction {motive : Value → Prop} (number : ∀ value, motive (.number value))
    (boolean : ∀ value, motive (.boolean value)) (string : ∀ value, motive (.string value))
    (closure : ∀ param body scope, motive (.closure param body scope))
    (builtin : ∀ function, motive (.builtin function))
    (constructor : ∀ name arity, motive (.constructor name arity))
    (pair : ∀ first second, motive first → motive second → motive (.pair first second))
    (constructed : ∀ name fields, (∀ v ∈ fields, motive v) → motive (.constructed name fields))
    (v : Value) : motive v :=
  @Value.rec motive (fun vs => ∀ v ∈ vs, motive v) number boolean string closure builtin
    constructor pair (fun name fields hs => constructed name fields hs)
    (fun _ h => by cases h) (fun _ _ h hs => List.forall_mem_cons.mpr ⟨h, hs⟩) v

end Casewise
