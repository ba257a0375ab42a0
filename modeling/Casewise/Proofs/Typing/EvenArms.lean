import Casewise.Proofs.Typing.Causes

/-!
# Checking a match whose arms pair up

Checking tests whether a match has as many patterns as branches. In a program that has been read it
has, so that this test is always passed, whatever the names of the program mean; and no other test
complains in the same words.

## Main definitions

* `Cause.UnevenArms`: the complaint that a match has not as many patterns as branches.

## Main statements

* `Stmt.Readable.even_check`: checking what has been read never complains so.
-/

namespace Casewise

/-- The complaint that a match has not as many patterns as branches. -/
def Cause.UnevenArms (c : Cause) : Prop :=
  ∃ expected got, c = .arityMismatch "match" expected got

/-- The error is another complaint. -/
def LangError.Even (e : LangError) : Prop :=
  ¬ e.cause.UnevenArms

theorem Cause.not_unevenArms_of_code {c : Cause} (h : c.code ≠ "E330") : ¬ c.UnevenArms := by
  rintro ⟨expected, got, rfl⟩
  exact h rfl

/-- Checking never complains of `UnevenArms` if the expressions that are checked are readable. -/
theorem Cause.OfChecking.not_unevenArms {K : Ty → Prop} {agree : Ty → Ty → Bool} {es : List Expr}
    {c : Cause} (h : c.OfChecking K agree es) {d : Declared} (hes : ∀ e ∈ es, e.Readable d) :
    ¬ c.UnevenArms := by
  cases h with
  | arms hmem hlength =>
    cases hes _ hmem with
    | cases _ heven => exact absurd heven hlength
  | arguments hwhat expected got =>
    rintro ⟨expected', got', heq⟩
    exact hwhat (Cause.arityMismatch.inj heq).1
  | names h => cases h <;> exact not_unevenArms_of_code (by simp [code])
  | _ => exact not_unevenArms_of_code (by simp [code, mismatch])

/-- Checking a statement that has been read never complains about uneven arms, whatever the names
mean: every error of `stmtWith` is `LangError.Even`. -/
theorem Stmt.Readable.even_check {d : Declared} {s : Stmt} (h : s.Readable d)
    (agree : Ty → Ty → Bool) : StopsOnly LangError.Even (Check.stmtWith agree s) := by
  intro Γ e he
  have hcause := (Context.ofKind_true Γ).stmtWith_failsOnly Ty.closedKind_true
    (fun _ _ _ _ => trivial) e he
  exact hcause.not_unevenArms h.of_mem_parts

end Casewise
