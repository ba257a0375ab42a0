import Casewise.Command.Perform
import Casewise.Proofs.Running.Printing

/-!
# The turns of a program

When a program is run, each statement has its turn. In its turn a statement may be checked first,
and then it is executed, unless it did not check. A run that keeps going shows all turns. A run that
does not shows the turns up to the first that fails.

## Main definitions

* `Turn`: what happens to a statement in its turn.
* `Session.turn`, `Session.turns`: the turn of a statement, and the turns of a program.
* `Turn.untilFailure`: the turns up to the first that fails.

## Main statements

* `runStatements_keepGoing`, `runStatements_untilFailure`: running a program shows its turns.
-/

namespace Casewise

/-- What happens to a statement in its turn. -/
inductive Turn where
  /-- It does not check, and is not executed. -/
  | rejected (e : LangError)
  | executed (result : Except Stop Unit) (lines : List String)

namespace Turn

/-- Whether the statement is executed without a stop. -/
def succeeded : Turn → Bool
  | executed (.ok _) _ => true
  | _ => false

/-- What is written in the turn, where no record is kept. -/
def written (s : Source) : Turn → List Written
  | rejected e => [s.reportCheck e]
  | executed (.ok _) lines => lines.map .printed
  | executed (.error stop) lines => s.reportStop stop :: lines.map .printed

/-- What a run tells from the turn on, where `rest` is what it tells afterwards: whether all turns
succeed, and what is written. A run that does not keep going ends with a turn that fails. -/
def before (keepGoing : Bool) (s : Source) (turn : Turn) (rest : Bool × List Written) :
    Bool × List Written :=
  if turn.succeeded then (rest.1, turn.written s ++ rest.2)
  else if keepGoing then (false, turn.written s ++ rest.2)
  else (false, turn.written s)

/-- The turns up to the first that fails. -/
def untilFailure : List Turn → List Turn
  | [] => []
  | turn :: turns => if turn.succeeded then turn :: untilFailure turns else [turn]

end Turn

namespace Session

/-- The turn of a statement, which is checked first if `checks` says so. -/
def turn (depth : ℕ) (checks : Bool) (σ : Session) (st : Stmt) : Turn × Session :=
  match if checks then σ.check (Check.stmt st) else (.ok (), σ) with
  | (.error e, σ') => (.rejected e, σ')
  | (.ok _, σ') =>
    let (result, lines, σ'') := σ'.run (Execute.stmt depth · st)
    (.executed result lines, σ'')

/-- The turns of a program, and the session after them. -/
def turns (depth : ℕ) (checks : Bool) (σ : Session) : Program → List Turn × Session
  | [] => ([], σ)
  | st :: p =>
    let (turn, σ') := σ.turn depth checks st
    let (turns, σ'') := σ'.turns depth checks p
    (turn :: turns, σ'')

variable {depth : ℕ} {σ σ' : Session} {st : Stmt}

theorem check_eq {r : Except LangError Unit} {Γ : Context}
    (h : outcome (Check.stmt st) σ.context = (r, Γ)) :
    σ.check (Check.stmt st) = (r, { σ with context := Γ }) := by
  rw [check, show (Check.stmt st).run.run σ.context = (r, Γ) from h]

theorem turn_of_outcome {r : Except Stop Unit} {m : Machine}
    (h : outcome (Execute.stmt depth σ.scope st) σ.machine = (r, m)) :
    σ.turn depth false st =
      (.executed r (m.output.toList.drop σ.machine.output.size), { σ with machine := m }) := by
  have hrun : σ.run (Execute.stmt depth · st) =
      (r, m.output.toList.drop σ.machine.output.size, { σ with machine := m }) := by
    simp only [run, show (Execute.stmt depth σ.scope st).run.run σ.machine = (r, m) from h]
  rw [turn, if_neg Bool.false_ne_true]
  simp only [hrun]

/-- A turn without a check is `Execute.stmt`. -/
theorem turn_of_unchecked (depth : ℕ) (σ : Session) (st : Stmt) :
    σ.turn depth false st =
      (.executed (σ.run (Execute.stmt depth · st)).1 (σ.run (Execute.stmt depth · st)).2.1,
        (σ.run (Execute.stmt depth · st)).2.2) :=
  rfl

theorem turn_of_check_error {e : LangError} (h : σ.check (Check.stmt st) = (.error e, σ')) :
    σ.turn depth true st = (.rejected e, σ') := by
  rw [turn, if_pos rfl, h]

theorem turn_of_check_ok {u : Unit} (h : σ.check (Check.stmt st) = (.ok u, σ')) :
    σ.turn depth true st = σ'.turn depth false st := by
  rw [turn, if_pos rfl, h]
  rfl

/-- What is told of a statement that checks is how `Execute.stmt` ends. -/
theorem turn_of_outcomes {u : Unit} {Γ : Context} {r : Except Stop Unit} {m : Machine}
    (hcheck : outcome (Check.stmt st) σ.context = (.ok u, Γ))
    (hrun : outcome (Execute.stmt depth σ.scope st) σ.machine = (r, m)) :
    σ.turn depth true st = (.executed r (m.output.toList.drop σ.machine.output.size),
      { σ with context := Γ, machine := m }) := by
  rw [turn_of_check_ok (check_eq hcheck)]
  exact turn_of_outcome (σ := { σ with context := Γ }) hrun

theorem machine_of_check {r : Except LangError Unit} (h : σ.check (Check.stmt st) = (r, σ')) :
    σ'.machine = σ.machine := by
  rw [← show (σ.check (Check.stmt st)).2 = σ' from congrArg Prod.snd h]
  rfl

theorem record_run_eq_none (h : σ.machine.record = none) (depth : ℕ) (st : Stmt) :
    (σ.run (Execute.stmt depth · st)).2.2.machine.record = none :=
  Execute.record_stmt_eq_none h depth σ.scope st

theorem record_turn_eq_none (h : σ.machine.record = none) (depth : ℕ) (checks : Bool) (st : Stmt) :
    (σ.turn depth checks st).2.machine.record = none := by
  cases checks with
  | false => exact record_run_eq_none h depth st
  | true =>
    rcases hcheck : σ.check (Check.stmt st) with ⟨e | u, σ'⟩
    · rwa [turn_of_check_error hcheck, machine_of_check hcheck]
    · rw [← machine_of_check hcheck] at h
      rw [turn_of_check_ok hcheck]
      exact record_run_eq_none h depth st

theorem turns_append (depth : ℕ) (checks : Bool) (σ : Session) (p q : Program) :
    σ.turns depth checks (p ++ q) =
      ((σ.turns depth checks p).1 ++ ((σ.turns depth checks p).2.turns depth checks q).1,
        ((σ.turns depth checks p).2.turns depth checks q).2) := by
  induction p generalizing σ with
  | nil => rfl
  | cons st p ih =>
    have hrest := ih (σ.turn depth checks st).2
    exact congrArg (fun r => ((σ.turn depth checks st).1 :: r.1, r.2)) hrest

end Session

/-! ### Running the statements of a program -/

variable {c : Config} {s : Source} {σ : Session} {depth : ℕ}

theorem logLines_eq_nil {m : Machine} (h : m.record = none) (count : ℕ) :
    logLines count m = [] := by
  rw [logLines, h, Option.getD_none]
  simp

/-- `runStatement` writes what is written in a turn without a check. -/
theorem runStatement_eq (h : σ.machine.record = none) (st : Stmt) :
    runStatement depth s σ st =
      ((σ.run (Execute.stmt depth · st)).1, (σ.turn depth false st).1.written s,
        (σ.turn depth false st).2) := by
  have hlogged : ∀ count, logLines count (σ.run (Execute.stmt depth · st)).2.2.machine = [] :=
    logLines_eq_nil (Session.record_run_eq_none h depth st)
  rw [runStatement, Session.turn_of_unchecked]
  simp only [hlogged, List.nil_append]
  cases (σ.run (Execute.stmt depth · st)).1 with
  | error stop => rfl
  | ok u => rfl

/-- What follows a `turn` without a check depends on how the execution ends. -/
theorem before_turn_of_unchecked (h : σ.machine.record = none) (st : Stmt)
    (rest : Session → Bool × List Written) :
    (match runStatement depth s σ st with
      | (.ok _, first, σ') => ((rest σ').1, first ++ (rest σ').2)
      | (.error _, first, σ') =>
        if c.keepGoing then (false, first ++ (rest σ').2) else (false, first)) =
      (σ.turn depth false st).1.before c.keepGoing s (rest (σ.turn depth false st).2) := by
  rw [runStatement_eq h, Session.turn_of_unchecked]
  cases (σ.run (Execute.stmt depth · st)).1 with
  | error stop => rfl
  | ok u => rfl

/-- `runStatements` begins with the turn of the first statement, which is checked first if the run
is to keep going and to check at all. -/
theorem runStatements_cons (h : σ.machine.record = none) (st : Stmt) (p : Program) :
    runStatements depth c s σ (st :: p) =
      (σ.turn depth (c.typecheck && c.keepGoing) st).1.before c.keepGoing s
        (runStatements depth c s (σ.turn depth (c.typecheck && c.keepGoing) st).2 p) := by
  rw [runStatements]
  cases hchecks : c.typecheck && c.keepGoing with
  | false =>
    rw [if_neg Bool.false_ne_true]
    exact before_turn_of_unchecked h st fun σ' => runStatements depth c s σ' p
  | true =>
    rw [if_pos rfl]
    rcases hcheck : σ.check (Check.stmt st) with ⟨e | u, σ'⟩
    · have hkeep : c.keepGoing = true := by
        rw [Bool.and_eq_true] at hchecks
        exact hchecks.2
      rw [Session.turn_of_check_error hcheck, hkeep]
      rfl
    · rw [← Session.machine_of_check hcheck] at h
      rw [Session.turn_of_check_ok hcheck]
      exact before_turn_of_unchecked h st fun σ' => runStatements depth c s σ' p

/-- With `keepGoing`, all turns are shown. -/
theorem runStatements_keepGoing (hc : c.keepGoing = true) (h : σ.machine.record = none)
    (p : Program) :
    runStatements depth c s σ p =
      (((σ.turns depth c.typecheck p).1).all Turn.succeeded,
        (σ.turns depth c.typecheck p).1.flatMap (Turn.written s)) := by
  induction p generalizing σ with
  | nil => rfl
  | cons st p ih =>
    have hnext := ih (Session.record_turn_eq_none h depth c.typecheck st)
    rw [runStatements_cons h, hc, Bool.and_true, hnext]
    simp only [Turn.before, Session.turns, List.all_cons, List.flatMap_cons]
    cases (σ.turn depth c.typecheck st).1.succeeded with
    | true => simp
    | false => simp

/-- Without `keepGoing`, the turns up to the first that fails are shown. -/
theorem runStatements_untilFailure (hc : c.keepGoing = false) (h : σ.machine.record = none)
    (p : Program) :
    runStatements depth c s σ p =
      ((Turn.untilFailure (σ.turns depth false p).1).all Turn.succeeded,
        (Turn.untilFailure (σ.turns depth false p).1).flatMap (Turn.written s)) := by
  induction p generalizing σ with
  | nil => rfl
  | cons st p ih =>
    have hnext := ih (Session.record_turn_eq_none h depth false st)
    rw [runStatements_cons h, hc, Bool.and_false, hnext]
    simp only [Turn.before, Session.turns, Turn.untilFailure]
    cases hturn : (σ.turn depth false st).1.succeeded with
    | true => simp [hturn]
    | false => simp [hturn]

end Casewise
