import Casewise.Proofs.Outcome
import Casewise.Proofs.Table
import Casewise.Proofs.Ty.Agreement
import Casewise.Typing.Infer

/-!
# When an expression has a type

Inference says of every form of expression, in terms of the types of its parts, when it has a type
and which one. The order in which the parts are looked at and the errors play no role here.

## Main statements

* `Context.inferWith_not_eq_ok` and its siblings: when an expression of each form has a type.
* `Context.inferArmsWith_eq_ok`: when the arms of a match have a type.
-/

namespace Casewise

/-! ### Checks -/

theorem located_eq_ok {α : Type} {span : Option Span} {x : Except LangError α} {a : α} :
    located span x = .ok a ↔ x = .ok a :=
  mapError_eq_ok

/-- `expectTy`: a type stands where another is expected if they agree. -/
theorem expectTy_eq_ok {expected found : Ty} {place : String} {span : Option Span} {u : Unit} :
    expectTy expected found place span = .ok u ↔ expected.agrees found = true := by
  rw [expectTy]
  split
  · next h => simp [h]
  · next h => exact iff_of_false (nomatch ·) h

/-- `expectArgsFrom`: arguments suit parameters one by one if their types agree one by one. -/
theorem expectArgsFrom_eq_ok {what : String} {inputs found : List Ty} {args : List Expr} {u : Unit}
    (hfound : inputs.length = found.length) (hargs : args.length = found.length) (index : Nat) :
    expectArgsFrom what index inputs found args = .ok u ↔ Ty.agreeAll inputs found = true := by
  induction inputs generalizing found args index with
  | nil =>
    obtain rfl := List.length_eq_zero_iff.mp hfound.symm
    simp [expectArgsFrom, Ty.agreeAll]
  | cons input inputs ih =>
    cases found with
    | nil => cases hfound
    | cons ty tys =>
      cases args with
      | nil => cases hargs
      | cons arg args =>
        rw [expectArgsFrom, bind_eq_ok, Ty.agreeAll, Bool.and_eq_true]
        simp only [expectTy_eq_ok]
        rw [exists_const, ih (Nat.succ.inj hfound) (Nat.succ.inj hargs)]

/-- `expectArgs`: arguments suit a callee if their types agree with those of the parameters. -/
theorem expectArgs_eq_ok {what : String} {inputs found : List Ty} {args : List Expr}
    {span : Option Span} {u : Unit} (hargs : args.length = found.length) :
    expectArgs what inputs found args span = .ok u ↔ Ty.agreeAll inputs found = true := by
  rw [expectArgs]
  split
  · next hlength =>
    refine iff_of_false (nomatch ·) fun h => hlength ?_
    exact (Ty.agreeAll_iff_forall₂.mp h).length_eq
  · next hlength => exact expectArgsFrom_eq_ok (not_not.mp hlength) hargs 1

/-- The type of the operands of a binary operator that the language knows. -/
def BinaryOp.operand (op : BinaryOp) : Ty :=
  if op = .plus then Ty.nat else Ty.bool

/-! ### Expressions -/

namespace Context

variable {agree : Ty → Ty → Bool} {Γ : Context} {ty : Ty} {span : Option Span}

/-- `inferAllWith` finds the types of expressions one by one. -/
theorem inferAllWith_eq_ok {es : List Expr} {tys : List Ty} :
    Γ.inferAllWith agree es = .ok tys ↔
      List.Forall₂ (fun e ty => Γ.inferWith agree e = .ok ty) es tys := by
  induction es generalizing tys with
  | nil => cases tys <;> simp [inferAllWith]
  | cons e es ih => cases tys <;> simp [inferAllWith, bind_eq_ok, pure, Except.pure, ih]

theorem inferWith_number_eq_ok {value : Int} :
    Γ.inferWith agree (.number value span) = .ok ty ↔ ty = .nat := by
  rw [inferWith, located_eq_ok, Except.ok.injEq, eq_comm]

example : Γ.inferWith agree (.number 3 span) = .ok .nat := by
  cbv

theorem inferWith_boolean_eq_ok {value : Bool} :
    Γ.inferWith agree (.boolean value span) = .ok ty ↔ ty = .bool := by
  rw [inferWith, located_eq_ok, Except.ok.injEq, eq_comm]

/-- `var` has the type it is bound to; a quoted name that is not bound is a string. -/
theorem inferWith_var_eq_ok {name : String} :
    Γ.inferWith agree (.var name span) = .ok ty ↔
      Γ.get? name = some ty ∨
        Γ.get? name = none ∧ Text.isQuoted name = true ∧ ty = .str := by
  rw [inferWith, located_eq_ok]
  cases Γ.get? name with
  | some ty' => simp
  | none =>
    cases Text.isQuoted name with
    | true => simp [eq_comm]
    | false => simp

/-- `not` needs a truth value. -/
theorem inferWith_not_eq_ok {operand : Expr} :
    Γ.inferWith agree (.not operand span) = .ok ty ↔
      ∃ a, Γ.inferWith agree operand = .ok a ∧ Ty.bool.agrees a = true ∧ ty = .bool := by
  rw [inferWith, located_eq_ok]
  simp only [bind_eq_ok, expectTy_eq_ok, pure_eq_ok, exists_const]

/-- `binary` needs operands of the type of the operator. -/
theorem inferWith_binary_eq_ok {op : BinaryOp} {left right : Expr} :
    Γ.inferWith agree (.binary op left right span) = .ok ty ↔
      ∃ a, Γ.inferWith agree left = .ok a ∧ ∃ b, Γ.inferWith agree right = .ok b ∧
        op.operand.agrees a = true ∧ op.operand.agrees b = true ∧ ty = op.operand := by
  rw [inferWith, located_eq_ok, BinaryOp.operand]
  simp only [bind_eq_ok, expectTy_eq_ok, pure_eq_ok, exists_const]

/-- `cond` needs a truth value and two branches that may stand for each other. -/
theorem inferWith_cond_eq_ok {condition thenBranch elseBranch : Expr} :
    Γ.inferWith agree (.cond condition thenBranch elseBranch span) = .ok ty ↔
      ∃ a, Γ.inferWith agree condition = .ok a ∧ ∃ b, Γ.inferWith agree thenBranch = .ok b ∧
        Γ.inferWith agree elseBranch = .ok ty ∧ Ty.bool.agrees a = true ∧ agree b ty = true := by
  rw [inferWith, located_eq_ok]
  simp only [bind_eq_ok, expectTy_eq_ok, exists_const]
  refine exists_congr fun a => and_congr_right fun _ => exists_congr fun b =>
    and_congr_right fun _ => ?_
  constructor
  · rintro ⟨c, hc, ha, h⟩
    split at h
    · next hagree => cases h; exact ⟨hc, ha, hagree⟩
    · cases h
  · rintro ⟨hc, ha, hagree⟩
    exact ⟨ty, hc, ha, if_pos hagree⟩

/-- `lambda` has the type of its body with its parameter bound. -/
theorem inferWith_lambda_eq_ok {param : String} {paramTy : Ty} {body : Expr} :
    Γ.inferWith agree (.lambda param paramTy body span) = .ok ty ↔
      ∃ b, inferWith agree (Γ.extend (.ofList [(param, paramTy)])) body = .ok b ∧
        ty = .arrow [paramTy] b := by
  rw [inferWith, located_eq_ok]
  simp only [bind_eq_ok, pure_eq_ok]

/-- `app` needs a function and arguments of the types of its parameters. -/
theorem inferWith_app_eq_ok {head : Expr} {args : List Expr} :
    Γ.inferWith agree (.app head args span) = .ok ty ↔
      ∃ inputs argTys, Γ.inferWith agree head = .ok (.arrow inputs ty) ∧
        List.Forall₂ (fun e ty => Γ.inferWith agree e = .ok ty) args argTys ∧
        Ty.agreeAll inputs argTys = true := by
  rw [inferWith, located_eq_ok]
  simp only [bind_eq_ok, inferAllWith_eq_ok]
  constructor
  · rintro ⟨headTy, hhead, argTys, hargs, h⟩
    cases headTy with
    | arrow inputs output =>
      simp only [bind_eq_ok, expectArgs_eq_ok hargs.length_eq] at h
      obtain ⟨-, hagree, h⟩ := h
      cases h
      exact ⟨inputs, argTys, hhead, hargs, hagree⟩
    | _ => cases h
  · rintro ⟨inputs, argTys, hhead, hargs, hagree⟩
    refine ⟨_, hhead, argTys, hargs, ?_⟩
    simp only [bind_eq_ok, expectArgs_eq_ok hargs.length_eq]
    exact ⟨⟨⟩, hagree, rfl⟩

/-- `pair` has the types of its components. -/
theorem inferWith_pair_eq_ok {first second : Expr} :
    Γ.inferWith agree (.pair first second span) = .ok ty ↔
      ∃ a, Γ.inferWith agree first = .ok a ∧ ∃ b, Γ.inferWith agree second = .ok b ∧
        ty = .pair a b := by
  rw [inferWith, located_eq_ok]
  simp only [bind_eq_ok, pure_eq_ok]

/-- `fst` needs a pair. -/
theorem inferWith_fst_eq_ok {operand : Expr} :
    Γ.inferWith agree (.fst operand span) = .ok ty ↔
      ∃ b, Γ.inferWith agree operand = .ok (.pair ty b) := by
  rw [inferWith, located_eq_ok]
  simp only [bind_eq_ok]
  constructor
  · rintro ⟨a, ha, h⟩
    cases a with
    | pair first second => cases h; exact ⟨second, ha⟩
    | _ => cases h
  · rintro ⟨b, hb⟩
    exact ⟨_, hb, rfl⟩

/-- `snd` needs a pair. -/
theorem inferWith_snd_eq_ok {operand : Expr} :
    Γ.inferWith agree (.snd operand span) = .ok ty ↔
      ∃ a, Γ.inferWith agree operand = .ok (.pair a ty) := by
  rw [inferWith, located_eq_ok]
  simp only [bind_eq_ok]
  constructor
  · rintro ⟨a, ha, h⟩
    cases a with
    | pair first second => cases h; exact ⟨first, ha⟩
    | _ => cases h
  · rintro ⟨b, hb⟩
    exact ⟨_, hb, rfl⟩

/-- `construct` needs a declared constructor and fields of its types. -/
theorem inferWith_construct_eq_ok {name : String} {args : List Expr} :
    Γ.inferWith agree (.construct name args span) = .ok ty ↔
      ∃ info argTys, Γ.registry.constructor? name = some info ∧
        List.Forall₂ (fun e ty => Γ.inferWith agree e = .ok ty) args argTys ∧
        Ty.agreeAll info.fields argTys = true ∧ ty = .construct name argTys info.data := by
  rw [inferWith, located_eq_ok]
  cases Γ.registry.constructor? name with
  | none => simp
  | some info =>
    simp only [bind_eq_ok, inferAllWith_eq_ok, Option.some.injEq]
    constructor
    · rintro ⟨argTys, hargs, u, hagree, h⟩
      rw [expectArgs_eq_ok hargs.length_eq] at hagree
      cases h
      exact ⟨info, argTys, rfl, hargs, hagree, rfl⟩
    · rintro ⟨info', argTys, rfl, hargs, hagree, rfl⟩
      exact ⟨argTys, hargs, ⟨⟩, (expectArgs_eq_ok hargs.length_eq).mpr hagree, rfl⟩

/-! ### The arms of a match -/

/-- An arm has a type: its pattern can fit, and its branch has the type with the names of the
pattern bound. -/
def ArmHasTy (agree : Ty → Ty → Bool) (Γ : Context) (subject : Ty)
    (arm : Pattern × Expr) (ty : Ty) :
    Prop :=
  ∃ bound, arm.1.bindings? Γ.registry subject = .ok (some bound) ∧
    inferWith agree (Γ.extend bound) arm.2 = .ok ty

/-- Arms have the type `first` if they have types that agree with it. -/
theorem inferArmsWith_some_eq_ok {subject first : Ty} {ps : List Pattern} {branches : List Expr}
    {result : Option Ty} :
    Γ.inferArmsWith agree subject (some first) ps branches = .ok result ↔
      result = some first ∧
        ∃ tys, List.Forall₂ (ArmHasTy agree Γ subject) (ps.zip branches) tys ∧
          ∀ ty ∈ tys, first.agrees ty = true := by
  have hnone : (Except.ok (some first) : Except LangError _) = .ok result ↔
      result = some first ∧ ∃ tys, List.Forall₂ (ArmHasTy agree Γ subject) [] tys ∧
        ∀ ty ∈ tys, first.agrees ty = true := by
    constructor
    · intro h
      cases h
      exact ⟨rfl, [], .nil, by simp⟩
    · rintro ⟨rfl, -⟩
      rfl
  induction ps generalizing branches with
  | nil => cases branches <;> exact hnone
  | cons p ps ih =>
    cases branches with
    | nil => exact hnone
    | cons branch branches =>
      rw [inferArmsWith, bind_eq_ok, List.zip_cons_cons]
      constructor
      · rintro ⟨bound, hbound, h⟩
        cases bound with
        | none => cases h
        | some bound =>
          simp only [bind_eq_ok, expectTy_eq_ok, ih] at h
          obtain ⟨ty, hty, -, hagree, hresult, tys, htys, hall⟩ := h
          exact ⟨hresult, ty :: tys, .cons ⟨bound, hbound, hty⟩ htys,
            List.forall_mem_cons.mpr ⟨hagree, hall⟩⟩
      · rintro ⟨hresult, tys', htys', hall⟩
        obtain ⟨ty, tys, ⟨bound, hbound, hty⟩, htys, rfl⟩ := List.forall₂_cons_left_iff.mp htys'
        obtain ⟨hagree, hall⟩ := List.forall_mem_cons.mp hall
        refine ⟨some bound, hbound, ?_⟩
        simp only [bind_eq_ok, expectTy_eq_ok, ih]
        exact ⟨ty, hty, ⟨⟩, hagree, hresult, tys, htys, hall⟩

/-- Arms have the type of the first one if the others have types that agree with it: `inferArmsWith`
says of each what `ArmHasTy` says. -/
theorem inferArmsWith_eq_ok {subject : Ty} {ps : List Pattern} {branches : List Expr} :
    Γ.inferArmsWith agree subject none ps branches = .ok (some ty) ↔
      ∃ tys, List.Forall₂ (ArmHasTy agree Γ subject) (ps.zip branches) (ty :: tys) ∧
        ∀ ty' ∈ tys, ty.agrees ty' = true := by
  cases ps with
  | nil => simp [inferArmsWith]
  | cons p ps =>
    cases branches with
    | nil => simp [inferArmsWith]
    | cons branch branches =>
      rw [inferArmsWith, bind_eq_ok, List.zip_cons_cons]
      constructor
      · rintro ⟨bound, hbound, h⟩
        cases bound with
        | none => cases h
        | some bound =>
          simp only [bind_eq_ok, inferArmsWith_some_eq_ok] at h
          obtain ⟨ty', hty, hresult, tys, htys, hall⟩ := h
          cases hresult
          exact ⟨tys, .cons ⟨bound, hbound, hty⟩ htys, hall⟩
      · rintro ⟨tys, harms, hall⟩
        obtain ⟨⟨bound, hbound, hty⟩, htys⟩ := List.forall₂_cons.mp harms
        refine ⟨some bound, hbound, ?_⟩
        simp only [bind_eq_ok, inferArmsWith_some_eq_ok]
        exact ⟨ty, hty, rfl, tys, htys, hall⟩

/-- `cases` needs arms that pair up and have types that agree. -/
theorem inferWith_cases_eq_ok {scrutinee : Expr} {ps : List Pattern} {branches : List Expr} :
    Γ.inferWith agree (.cases scrutinee ps branches span) = .ok ty ↔
      ∃ subject tys, Γ.inferWith agree scrutinee = .ok subject ∧ ps.length = branches.length ∧
        List.Forall₂ (ArmHasTy agree Γ subject) (ps.zip branches) (ty :: tys) ∧
        ∀ ty' ∈ tys, ty.agrees ty' = true := by
  rw [inferWith, located_eq_ok]
  simp only [bind_eq_ok]
  constructor
  · rintro ⟨subject, hsubject, h⟩
    split at h
    · cases h
    · next hlength =>
      obtain ⟨result, hresult, h⟩ := bind_eq_ok.mp h
      cases result with
      | none => cases h
      | some ty' =>
        cases h
        obtain ⟨tys, htys, hall⟩ := inferArmsWith_eq_ok.mp hresult
        exact ⟨subject, tys, hsubject, not_not.mp hlength, htys, hall⟩
  · rintro ⟨subject, tys, hsubject, hlength, htys, hall⟩
    refine ⟨subject, hsubject, ?_⟩
    rw [if_neg (not_not.mpr hlength)]
    exact bind_eq_ok.mpr ⟨some ty, inferArmsWith_eq_ok.mpr ⟨tys, htys, hall⟩, rfl⟩

end Context

end Casewise
