import Mathlib.Data.List.Infix
import Casewise.Proofs.Running.Growth
import Casewise.Running.Execute

/-!
# Printed lines stay printed

Running a program adds lines to the output and takes none away, whether it comes to its end or not.
So the lines printed by a program are those of its first statements, followed by those of the rest.
A record of events is kept only if it was asked for at the beginning.

## Main definitions

* `Machine.Steps`: one step of executing.

## Main statements

* `Execute.takes_stmt`: the steps that a statement takes.
* `Execute.record_stmt_eq_none`: no record is begun.
* `Execute.keepsOutput_program`: the lines printed before a program is run come first afterwards.
-/

namespace Casewise

/-- What executing does to a machine in one step. -/
inductive Machine.Steps (m : Machine) : Machine → Prop
  | scopes (scopes : Forest Value) : m.Steps { m with scopes }
  | log (event : Event) : m.Steps (m.log event)
  | print (line : String) : m.Steps (m.print line)

theorem Machine.Adds.steps {m m' : Machine} (h : m.Adds m') : m.Steps m' := by
  cases h with
  | extend s bound => exact .scopes _
  | log event => exact .log event

namespace Execute

open Run.Takes

/-- Each step of executing a statement is one of `Machine.Steps`. -/
theorem takes_stmt (depth : ℕ) (s : ScopeId) (st : Stmt) :
    (stmt depth s st).Takes Machine.Steps := by
  have hevaluate : ∀ e, (evaluate depth s e).Takes Machine.Steps := fun e =>
    (takes_evaluate depth s e).mono fun _ _ => Machine.Adds.steps
  have hlog : ∀ event, (Run.log event).Takes Machine.Steps := fun event m => .single (.log event)
  have hupdate : ∀ f, (Run.update f).Takes Machine.Steps := fun f =>
    update fun m scopes _ => .scopes scopes
  rw [stmt.eq_def]
  refine Run.Takes.located ?_ _
  split
  next name value span =>
    refine bind (hlog _) fun _ => ?_
    exact bind (hevaluate value) fun v => hupdate _
  next name nameSpan value span =>
    refine bind (hevaluate value) fun v => ?_
    exact bind (hlog _) fun _ => hupdate _
  next => exact fail _ _
  next value span =>
    refine bind (hevaluate value) fun v => ?_
    exact bind (hlog _) fun _ m => .single (.print _)
  next name constructors span =>
    refine bind (withScopes _) fun r => bind (ofExcept r) fun _ => ?_
    refine bind (declare fun _ _ scopes _ => .scopes scopes) fun _ => ?_
    exact bind (forM (fun c => hupdate _) constructors) fun _ => hlog _

/-- A machine that keeps no `record` does not begin to. -/
theorem record_stmt_eq_none {m : Machine} (hm : m.record = none) (depth : ℕ) (s : ScopeId)
    (st : Stmt) : (outcome (stmt depth s st) m).2.record = none := by
  refine (takes_stmt depth s st).preserves (·.record = none) (fun m m' hstep hm => ?_) hm
  cases hstep with
  | scopes scopes => exact hm
  | log event => rw [Machine.log, hm, Option.map_none]
  | print line => exact hm

end Execute

/-- However it ends, running keeps the lines printed before and adds to them at most. -/
def Run.KeepsOutput {α : Type} (x : Run α) : Prop :=
  ∀ m : Machine, m.output.toList <+: (outcome x m).2.output.toList

/-- A run that `Takes` steps of executing keeps the output. -/
theorem Run.KeepsOutput.of_takes {α : Type} {x : Run α} (h : x.Takes Machine.Steps) :
    x.KeepsOutput := by
  intro m
  refine h.preserves (m.output.toList <+: ·.output.toList) (fun m₁ m₂ hstep hm => ?_)
    List.prefix_rfl
  cases hstep with
  | scopes scopes => exact hm
  | log event => exact hm
  | print line =>
    change m.output.toList <+: (m₁.output.push line).toList
    rw [Array.toList_push]
    exact hm.trans (List.prefix_append _ _)

/-- `Execute.program` keeps the lines printed before it. -/
theorem Execute.keepsOutput_program (depth : ℕ) (s : ScopeId) (p : Program) :
    (program depth s p).KeepsOutput :=
  .of_takes (.forM (takes_stmt depth s) p)

end Casewise
