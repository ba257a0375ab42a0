import Casewise.Proofs.Alongside
import Casewise.Proofs.Typing.Statements
import Casewise.Session

/-!
# Types that stay

A function keeps the level it was made in, so its body runs among names that were bound after it was
checked. Its type stays what it was: names keep their types, and constructors stay declared. One
kind of name can change its meaning later on. A quoted name is a string only as long as nothing
binds it, and a definition may bind it to something else.

## Main definitions

* `Expr.uses`: the names that occur free in an expression.
* `Context.KeepsName`: a name means in one context at least what it means in another.

## Main statements

* `Expr.inferWith_of_keepsName`: a type stays where the names that the expression uses keep their
  meaning.
* `Expr.infer_after`: a type stays when further statements are checked, if the quoted names that
  they bind and the expression uses are strings.
-/

namespace Casewise

/-! ### The names that an expression uses -/

namespace Expr

mutual

/-- Whether the name occurs free in the expression. -/
def uses (name : String) : Expr → Bool
  | var other _ => name = other
  | number .. | boolean .. => false
  | not operand _ | fst operand _ | snd operand _ => uses name operand
  | binary _ left right _ | pair left right _ => uses name left || uses name right
  | cond condition thenBranch elseBranch _ =>
    uses name condition || uses name thenBranch || uses name elseBranch
  | lambda param _ body _ => name ≠ param && uses name body
  | app head args _ => uses name head || usesAny name args
  | construct _ args _ => usesAny name args
  | cases scrutinee ps branches _ => uses name scrutinee || usesArm name ps branches

/-- Whether the name occurs free in one of the expressions. -/
def usesAny (name : String) : List Expr → Bool
  | [] => false
  | e :: es => uses name e || usesAny name es

/-- Whether the name occurs free in one of the branches, and its pattern does not bind it. -/
def usesArm (name : String) : List Pattern → List Expr → Bool
  | p :: ps, branch :: branches =>
    (name ∉ p.names && uses name branch) || usesArm name ps branches
  | _, _ => false

end

variable {name : String}

theorem usesAny_of_mem {e : Expr} {es : List Expr} (he : e ∈ es) (h : e.uses name = true) :
    usesAny name es = true := by
  induction es with
  | nil => cases he
  | cons e' es ih =>
    rw [usesAny, Bool.or_eq_true]
    rcases List.mem_cons.mp he with rfl | he
    · exact .inl h
    · exact .inr (ih he)

/-- A name occurs free in an arm (`usesArm`) if its branch uses it and its pattern does not bind
it. -/
theorem usesArm_of_mem {ps : List Pattern} {branches : List Expr} {arm : Pattern × Expr}
    (harm : arm ∈ ps.zip branches) (hname : name ∉ arm.1.names) (h : arm.2.uses name = true) :
    usesArm name ps branches = true := by
  induction ps generalizing branches with
  | nil => cases harm
  | cons p ps ih =>
    cases branches with
    | nil => cases harm
    | cons branch branches =>
      rw [usesArm, Bool.or_eq_true, Bool.and_eq_true, decide_eq_true_eq]
      rcases List.mem_cons.mp harm with rfl | harm
      · exact .inl ⟨hname, h⟩
      · exact .inr (ih harm)

end Expr

/-! ### Names that keep their meaning -/

/-- The name means in `Γ'` what it means in `Γ`: it keeps its type if it is bound, and if it is
quoted and not bound, it is still a string. -/
def Context.KeepsName (Γ Γ' : Context) (name : String) : Prop :=
  (∀ ty, Γ.get? name = some ty → Γ'.get? name = some ty) ∧
    (Text.isQuoted name = true → Γ.get? name = none →
      Γ'.get? name = none ∨ Γ'.get? name = some .str)

/-- A name that a new level binds keeps its meaning inside of it, and another name does if it does
around it: `KeepsName` passes through `extend`. -/
theorem Context.KeepsName.extend {Γ Γ' : Context} {bound : Table Ty} {name : String}
    (h : name ∉ bound.names → Γ.KeepsName Γ' name) :
    Context.KeepsName (Γ.extend bound) (Γ'.extend bound) name := by
  rw [KeepsName, Chain.get?_extend, Chain.get?_extend]
  cases hbound : bound.get? name with
  | some ty => exact ⟨fun _ h => h, fun _ h => nomatch h⟩
  | none => exact h (Table.get?_eq_none_iff.mp hbound)

/-- A type stays where the names that the expression `uses` keep their meaning and the constructors
stay declared. -/
theorem Expr.inferWith_of_keepsName {agree : Ty → Ty → Bool} {Γ Γ' : Context} {e : Expr} {ty : Ty}
    (h : ∀ name, e.uses name = true → Γ.KeepsName Γ' name) (hR : Γ.registry ≤ Γ'.registry)
    (hty : Γ.inferWith agree e = .ok ty) : Γ'.inferWith agree e = .ok ty := by
  induction e generalizing Γ Γ' ty with
  | var name span =>
    obtain ⟨hbound, hfree⟩ := h name (decide_eq_true rfl)
    rw [Context.inferWith_var_eq_ok] at hty ⊢
    rcases hty with hty | ⟨hnone, hquoted, rfl⟩
    · exact .inl (hbound ty hty)
    · rcases hfree hquoted hnone with hnone | hstr
      · exact .inr ⟨hnone, hquoted, rfl⟩
      · exact .inl hstr
  | number value span => exact hty
  | boolean value span => exact hty
  | not operand span ih =>
    rw [Context.inferWith_not_eq_ok] at hty ⊢
    obtain ⟨a, ha, hagree⟩ := hty
    exact ⟨a, ih h hR ha, hagree⟩
  | binary op left right span ih ih' =>
    simp only [uses, Bool.or_eq_true, or_imp, forall_and] at h
    rw [Context.inferWith_binary_eq_ok] at hty ⊢
    obtain ⟨a, ha, b, hb, hagree⟩ := hty
    exact ⟨a, ih h.1 hR ha, b, ih' h.2 hR hb, hagree⟩
  | cond condition thenBranch elseBranch span ih ih' ih'' =>
    simp only [uses, Bool.or_eq_true, or_imp, forall_and] at h
    obtain ⟨⟨hcondition, hthen⟩, helse⟩ := h
    rw [Context.inferWith_cond_eq_ok] at hty ⊢
    obtain ⟨a, ha, b, hb, hty, hagree⟩ := hty
    exact ⟨a, ih hcondition hR ha, b, ih' hthen hR hb, ih'' helse hR hty, hagree⟩
  | lambda param paramTy body span ih =>
    rw [Context.inferWith_lambda_eq_ok] at hty ⊢
    obtain ⟨b, hb, rfl⟩ := hty
    have hbody : ∀ name, body.uses name = true → Context.KeepsName
        (Γ.extend (.ofList [(param, paramTy)])) (Γ'.extend (.ofList [(param, paramTy)])) name := by
      refine fun name hname => .extend fun hparam => h name ?_
      rw [Table.names, Table.entries_ofList_singleton, List.map_singleton,
        List.mem_singleton] at hparam
      rw [uses, Bool.and_eq_true, decide_eq_true_eq]
      exact ⟨hparam, hname⟩
    exact ⟨b, ih hbody hR hb, rfl⟩
  | app head args span ih ihs =>
    simp only [uses, Bool.or_eq_true, or_imp, forall_and] at h
    rw [Context.inferWith_app_eq_ok] at hty ⊢
    obtain ⟨inputs, argTys, hhead, hargs, hagree⟩ := hty
    refine ⟨inputs, argTys, ih h.1 hR hhead, ?_, hagree⟩
    exact forall₂_imp_of_mem hargs fun arg harg argTy hargTy =>
      ihs arg harg (fun name hname => h.2 name (usesAny_of_mem harg hname)) hR hargTy
  | pair first second span ih ih' =>
    simp only [uses, Bool.or_eq_true, or_imp, forall_and] at h
    rw [Context.inferWith_pair_eq_ok] at hty ⊢
    obtain ⟨a, ha, b, hb, rfl⟩ := hty
    exact ⟨a, ih h.1 hR ha, b, ih' h.2 hR hb, rfl⟩
  | fst operand span ih =>
    rw [Context.inferWith_fst_eq_ok] at hty ⊢
    obtain ⟨b, hb⟩ := hty
    exact ⟨b, ih h hR hb⟩
  | snd operand span ih =>
    rw [Context.inferWith_snd_eq_ok] at hty ⊢
    obtain ⟨a, ha⟩ := hty
    exact ⟨a, ih h hR ha⟩
  | construct name args span ihs =>
    rw [Context.inferWith_construct_eq_ok] at hty ⊢
    obtain ⟨info, argTys, hinfo, hargs, hagree, rfl⟩ := hty
    refine ⟨info, argTys, hR _ _ hinfo, ?_, hagree, rfl⟩
    exact forall₂_imp_of_mem hargs fun arg harg argTy hargTy =>
      ihs arg harg (fun name hname => h name (usesAny_of_mem harg hname)) hR hargTy
  | cases scrutinee ps branches span ih ihs =>
    simp only [uses, Bool.or_eq_true, or_imp, forall_and] at h
    rw [Context.inferWith_cases_eq_ok] at hty ⊢
    obtain ⟨subject, tys, hsubject, hlength, harms, hagree⟩ := hty
    refine ⟨subject, tys, ih h.1 hR hsubject, hlength, ?_, hagree⟩
    refine forall₂_imp_of_mem harms fun arm harm armTy harmTy => ?_
    obtain ⟨bound, hbound, hbranch⟩ := harmTy
    have hkeeps : ∀ name, arm.2.uses name = true →
        Context.KeepsName (Γ.extend bound) (Γ'.extend bound) name := by
      refine fun name hname => .extend fun hnew => h.2 name ?_
      rw [Pattern.names_of_bindings? hbound] at hnew
      exact usesArm_of_mem harm hnew hname
    exact ⟨bound, Pattern.bindings?_of_le hR hbound,
      ihs arm.2 (List.of_mem_zip harm).2 hkeeps hR hbranch⟩

/-! ### Further statements -/

/-- A name keeps its meaning (`KeepsName`) when further statements are checked in the outermost
level, unless they bind a quoted name to something that is no string. -/
theorem Program.Checks.keepsName {agree : Ty → Ty → Bool} {Γ Γ' : Context} {p : Program}
    (h : p.Checks agree Γ Γ') (houter : Γ.outer = []) {name : String}
    (hname : Text.isQuoted name = true → Γ.get? name = none →
      Γ'.get? name = none ∨ Γ'.get? name = some .str) : Γ.KeepsName Γ' name := by
  refine ⟨fun ty hty => ?_, hname⟩
  have houter' : Γ'.outer = [] := h.outer_eq.trans houter
  rw [Chain.get?_of_outer_eq houter] at hty
  rw [Chain.get?_of_outer_eq houter']
  exact h.get?_eq_some hty

/-- A checked expression keeps its type. Whatever statements `p` have been checked from the
beginning and whatever statements `q` are checked after them, an expression that has a type before
`q` has the same type afterwards, provided that a quoted name that it uses and that was a string
because nothing bound it is not bound later to something else. -/
theorem Expr.infer_after {builtins recording : Bool} {p q : Program} {Γ Γ' : Context}
    (hp : outcome (Check.program p) (Session.start builtins recording).context = (.ok (), Γ))
    (hq : outcome (Check.program q) Γ = (.ok (), Γ')) {e : Expr} {ty : Ty}
    (hty : Γ.infer e = .ok ty)
    (hquoted : ∀ name, e.uses name = true → Text.isQuoted name = true → Γ.get? name = none →
      Γ'.get? name = none ∨ Γ'.get? name = some .str) : Γ'.infer e = .ok ty := by
  have hp : p.Checks Ty.sameTag _ Γ := Check.forM_stmtWith_eq_ok.mp hp
  have hq : q.Checks Ty.sameTag Γ Γ' := Check.forM_stmtWith_eq_ok.mp hq
  have houter : Γ.outer = [] := hp.outer_eq
  refine inferWith_of_keepsName (fun name hname => ?_) hq.registry_le hty
  exact hq.keepsName houter (hquoted name hname)

/-- A function that says hello. -/
private def greeting : Expr :=
  .lambda "n" .nat (.var "\"hello\"" none) none

/-- A program that names the function. -/
private def greetingNamed : Program :=
  [.define "greet" greeting none]

/-- A program that says goodbye from now on. -/
private def greetingChanged : Program :=
  [.define "\"hello\"" (.var "\"goodbye\"" none) none]

/-- `greeting`, a function that returns a string, keeps its type when the text of the string is
bound to another string. -/
theorem Expr.infer_after_greetingChanged : ∃ Γ Γ',
    outcome (Check.program greetingNamed) (Session.start true).context = (.ok (), Γ) ∧
    outcome (Check.program greetingChanged) Γ = (.ok (), Γ') ∧
    Γ.infer greeting = .ok (.arrow [.nat] .str) ∧ Γ'.get? "\"hello\"" = some .str ∧
    Γ'.infer greeting = .ok (.arrow [.nat] .str) := by
  let Γ := (outcome (Check.program greetingNamed) (Session.start true).context).2
  let Γ' := (outcome (Check.program greetingChanged) Γ).2
  have hp : outcome (Check.program greetingNamed) (Session.start true).context = (.ok (), Γ) :=
    Prod.ext (by decide +kernel) rfl
  have hq : outcome (Check.program greetingChanged) Γ = (.ok (), Γ') :=
    Prod.ext (by decide +kernel) rfl
  have hty : Γ.infer greeting = .ok (.arrow [.nat] .str) := by decide +kernel
  have hstr : Γ'.get? "\"hello\"" = some .str := by decide +kernel
  refine ⟨Γ, Γ', hp, hq, hty, hstr, Expr.infer_after hp hq hty fun name hname _ _ => .inr ?_⟩
  -- the text is the only name that the function uses
  obtain rfl : name = "\"hello\"" := by
    rw [greeting, uses, uses, Bool.and_eq_true, decide_eq_true_eq, decide_eq_true_eq] at hname
    exact hname.2
  exact hstr

/-- A program that prints a string and then binds its text to a number. -/
private def boundLater : String :=
  "(print \"a\")(define \"a\" 1)"

/-- An expression does not keep its type if it is a string whose text a later statement binds to a
number, as in `boundLater`. -/
theorem Expr.infer_after_boundLater : ∃ p q e span Γ Γ',
    parse "main" boundLater = .ok (p ++ q) ∧ p = [.print e span] ∧
    outcome (Check.program p) (Session.start true).context = (.ok (), Γ) ∧
    outcome (Check.program q) Γ = (.ok (), Γ') ∧ Γ.infer e = .ok .str ∧ Γ'.infer e = .ok .nat := by
  let span (first last : Int) : Option Span := some ⟨"main", ⟨1, first⟩, ⟨1, last⟩⟩
  let p : Program := [.print (.var "\"a\"" (span 8 10)) (span 1 11)]
  let q : Program := [.define "\"a\"" (.number 1 (span 24 24)) (span 12 25)]
  let Γ := (outcome (Check.program p) (Session.start true).context).2
  let Γ' := (outcome (Check.program q) Γ).2
  have hparse : parse "main" boundLater = .ok (p ++ q) := rfl
  have hp : outcome (Check.program p) (Session.start true).context = (.ok (), Γ) :=
    Prod.ext (by decide +kernel) rfl
  have hq : outcome (Check.program q) Γ = (.ok (), Γ') := Prod.ext (by decide +kernel) rfl
  have hbefore : Γ.infer (.var "\"a\"" (span 8 10)) = .ok .str := by decide +kernel
  have hafter : Γ'.infer (.var "\"a\"" (span 8 10)) = .ok .nat := by decide +kernel
  exact ⟨p, q, _, _, Γ, Γ', hparse, rfl, hp, hq, hbefore, hafter⟩

end Casewise
