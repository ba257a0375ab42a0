import Mathlib.Data.List.Basic
import Casewise.Proofs.Command.Reports
import Casewise.Proofs.Command.Turns
import Casewise.Proofs.Typing.Statements

/-!
# Keeping going or not

A run that does not keep going checks the whole program and then executes statements up to the first
that stops. A run that keeps going checks each statement in its turn, and goes on after errors. The
two agree as far as the first run comes. While statements check, what was executed before makes no
difference to checking, and what was checked before makes none to execution, so both runs meet the
same turns. If some statement does not check, it is the same one in both, because a statement that
stops in execution has been checked nevertheless.

## Main definitions

* `Outcome.ofTurns`: what a run answers that has shown some turns.

## Main statements

* `Session.turns_eq_of_checks`: a program that checks has the same turns with and without checking.
* `Session.exists_rejected`: the first error in checking is the first rejection.
* `runProgram_keepGoing_agrees`: how a run that keeps going answers compared with one that does not.
-/

namespace Casewise

/-! ### What turns amount to -/

namespace Turn

variable {s : Source}

/-- The report of a turn, if it fails. -/
def report? (s : Source) : Turn → Option Written
  | rejected e => some (s.reportCheck e)
  | executed (.ok _) _ => none
  | executed (.error stop) _ => some (s.reportStop stop)

theorem report?_eq_none {turn : Turn} : turn.report? s = none ↔ turn.succeeded = true := by
  cases turn with
  | rejected e => simp [report?, succeeded]
  | executed result lines => cases result <;> simp [report?, succeeded]

/-- Of what is written in a turn, all but `Turn.report?` are printed lines. -/
theorem filter_written (turn : Turn) :
    (turn.written s).filter Written.isReport = (turn.report? s).toList := by
  have hprinted : ∀ lines : List String,
      (lines.map Written.printed).filter Written.isReport = [] := by
    intro lines
    simp [Written.isReport]
  cases turn with
  | rejected e => rfl
  | executed result lines =>
    cases result with
    | ok u => exact hprinted lines
    | error stop =>
      have hreport : (s.reportStop stop).isReport = true := by cases stop <;> rfl
      rw [written, List.filter_cons_of_pos hreport, hprinted]
      rfl

/-- Nothing goes to `stderr` in a turn that succeeds. -/
theorem stderr_of_succeeded {turn : Turn} (h : turn.succeeded = true) :
    ∀ w ∈ turn.written s, w.stderr = "" := by
  intro w hw
  cases turn with
  | rejected e => cases h
  | executed result lines =>
    cases result with
    | error stop => cases h
    | ok u =>
      obtain ⟨line, -, rfl⟩ := List.mem_map.mp hw
      rfl

/-- Either all turns succeed, or `untilFailure` ends with the first that fails. -/
theorem untilFailure_cases (turns : List Turn) :
    ((∀ turn ∈ turns, turn.succeeded = true) ∧ untilFailure turns = turns) ∨
    ∃ before turn after, turns = before ++ turn :: after ∧ (∀ t ∈ before, t.succeeded = true) ∧
      turn.succeeded = false ∧ untilFailure turns = before ++ [turn] := by
  induction turns with
  | nil => exact .inl ⟨List.forall_mem_nil _, rfl⟩
  | cons turn turns ih =>
    rw [untilFailure]
    cases hturn : turn.succeeded with
    | false => exact .inr ⟨[], turn, turns, rfl, List.forall_mem_nil _, hturn, rfl⟩
    | true =>
      rw [if_pos rfl]
      rcases ih with ⟨hall, huntil⟩ | ⟨before, failed, after, rfl, hbefore, hfailed, huntil⟩
      · exact .inl ⟨List.forall_mem_cons.mpr ⟨hturn, hall⟩, by rw [huntil]⟩
      · refine .inr ⟨turn :: before, failed, after, rfl, ?_, hfailed, by rw [huntil]; rfl⟩
        exact List.forall_mem_cons.mpr ⟨hturn, hbefore⟩

end Turn

namespace Outcome

variable {s : Source} {turns : List Turn}

/-- What a run answers that has shown the turns. -/
def ofTurns (s : Source) (turns : List Turn) : Outcome :=
  ⟨if turns.all Turn.succeeded then 0 else 1, turns.flatMap (Turn.written s)⟩

theorem status_ofTurns_eq_zero :
    (ofTurns s turns).status = 0 ↔ ∀ turn ∈ turns, turn.succeeded = true := by
  rw [ofTurns, ← List.all_eq_true]
  split <;> simp_all

theorem reports_ofTurns : (ofTurns s turns).reports = turns.filterMap (Turn.report? s) := by
  rw [reports, ofTurns, List.filter_flatMap]
  simp only [Turn.filter_written]
  exact (List.filterMap_eq_flatMap_toList _ _).symm

/-- The run fails if there are `reports`. -/
theorem status_ofTurns_eq_one : (ofTurns s turns).status = 1 ↔ (ofTurns s turns).reports ≠ [] := by
  have hstatus : (ofTurns s turns).status = 1 ↔ ¬ (ofTurns s turns).status = 0 := by
    rw [ofTurns]
    split <;> simp
  rw [hstatus, status_ofTurns_eq_zero, reports_ofTurns, ne_eq, List.filterMap_eq_nil_iff]
  simp only [Turn.report?_eq_none]

theorem stderr_ofTurns (h : ∀ turn ∈ turns, turn.succeeded = true) :
    (ofTurns s turns).stderr = "" := by
  refine stderr_eq_empty fun w hw => ?_
  obtain ⟨turn, hturn, hw⟩ := List.mem_flatMap.mp hw
  exact Turn.stderr_of_succeeded (h turn hturn) w hw

/-- The first report about checking is that of the first turn that is `rejected`. -/
theorem find?_reports_ofTurns {before after : List Turn} {e : LangError}
    (h : ∀ turn ∈ before, ∃ result lines, turn = .executed result lines) :
    (ofTurns s (before ++ .rejected e :: after)).reports.find?
      (Written.isRemarked "while type checking") = some (s.reportCheck e) := by
  -- the reports before the rejection are those of stops, and have another remark
  have hbefore : (before.filterMap (Turn.report? s)).find?
      (Written.isRemarked "while type checking") = none := by
    refine List.find?_eq_none.mpr fun report hreport => ?_
    obtain ⟨turn, hturn, hreport⟩ := List.mem_filterMap.mp hreport
    obtain ⟨result, lines, rfl⟩ := h turn hturn
    cases result with
    | ok u => cases hreport
    | error stop =>
      cases hreport
      exact Bool.eq_false_iff.mp (s.isRemarked_reportStop stop)
  rw [reports_ofTurns, List.filterMap_append, List.find?_append, hbefore, Option.none_or,
    List.filterMap_cons_some (by rfl)]
  exact List.find?_cons_of_pos (s.isRemarked_reportCheck e)

/-- The first of the `reports` of a run in which turns succeed until a statement stops is about this
stop. -/
theorem reports_ofTurns_of_stop {before after : List Turn} {stop : Stop} {lines : List String}
    (h : ∀ turn ∈ before, turn.succeeded = true) :
    (ofTurns s (before ++ .executed (.error stop) lines :: after)).reports =
      s.reportStop stop :: after.filterMap (Turn.report? s) := by
  have hbefore : before.filterMap (Turn.report? s) = [] :=
    List.filterMap_eq_nil_iff.mpr fun turn hturn => Turn.report?_eq_none.mpr (h turn hturn)
  rw [reports_ofTurns, List.filterMap_append, hbefore]
  rfl

theorem stdout_ofTurns_append (turns turns' : List Turn) :
    (ofTurns s (turns ++ turns')).stdout = (ofTurns s turns).stdout ++
      (ofTurns s turns').stdout := by
  rw [ofTurns, List.flatMap_append]
  exact stdout_append _ _ _ _

end Outcome

/-! ### Two answers that agree -/

/-- How the answer `plain` of a run that does not keep going compares with the answer `going` of a
run that does. The outcome of checking the whole program is `checks`. -/
structure RunsAgree (s : Source) (checks : Except LangError Unit) (plain going : Outcome) :
    Prop where
  /-- One run succeeds if the other does. -/
  succeeds_iff : plain.status = 0 ↔ going.status = 0
  /-- If they succeed, they print the same and write nothing to the standard error. -/
  of_success : plain.status = 0 → plain.stdout = going.stdout ∧ plain.stderr = "" ∧
    going.stderr = ""
  /-- If the program does not check, the first run prints nothing, and its one report is what the
  other reports first about checking. -/
  of_check_error : ∀ e, checks = .error e → plain.stdout = "" ∧ plain.reports = [s.reportCheck e] ∧
    going.reports.find? (Written.isRemarked "while type checking") = some (s.reportCheck e)
  /-- If the program checks but a statement stops, the one report of the first run is what the other
  reports first, and the other prints what the first does, and perhaps more. -/
  of_stop : checks = .ok () → plain.status ≠ 0 → ∃ stop, plain.reports = [s.reportStop stop] ∧
    going.reports.head? = some (s.reportStop stop) ∧ ∃ rest, going.stdout = plain.stdout ++ rest
  /-- The first run fails if it reports something. -/
  plain_fails_iff : plain.status = 1 ↔ plain.reports ≠ []
  /-- The other run fails if it reports something. -/
  going_fails_iff : going.status = 1 ↔ going.reports ≠ []

namespace RunsAgree

variable {s : Source}

/-- `RunsAgree` for a report about checking alone, and turns whose first rejection has this
report. -/
theorem of_rejected {before after : List Turn} {e : LangError}
    (h : ∀ turn ∈ before, ∃ result lines, turn = .executed result lines) :
    RunsAgree s (.error e) (.failure [s.reportCheck e])
      (.ofTurns s (before ++ .rejected e :: after)) where
  succeeds_iff := by
    refine iff_of_false nofun fun hzero => ?_
    have hmem : Turn.rejected e ∈ before ++ .rejected e :: after := by simp
    cases Outcome.status_ofTurns_eq_zero.mp hzero _ hmem
  of_success := nofun
  of_check_error e' he' := by
    cases he'
    exact ⟨rfl, rfl, Outcome.find?_reports_ofTurns h⟩
  of_stop hok := by cases hok
  plain_fails_iff := iff_of_true rfl (List.cons_ne_nil _ _)
  going_fails_iff := Outcome.status_ofTurns_eq_one

/-- `RunsAgree` for executions up to the first that fails, and all of them. -/
theorem of_executed {turns : List Turn}
    (h : ∀ turn ∈ turns, ∃ result lines, turn = .executed result lines) :
    RunsAgree s (.ok ()) (.ofTurns s (Turn.untilFailure turns)) (.ofTurns s turns) := by
  rcases Turn.untilFailure_cases turns with
    ⟨hall, huntil⟩ | ⟨before, turn, after, rfl, hbefore, hfailed, huntil⟩
  · have hzero : (Outcome.ofTurns s turns).status = 0 := Outcome.status_ofTurns_eq_zero.mpr hall
    have hstderr : (Outcome.ofTurns s turns).stderr = "" := Outcome.stderr_ofTurns hall
    rw [huntil]
    exact
      { succeeds_iff := Iff.rfl
        of_success := fun _ => ⟨rfl, hstderr, hstderr⟩
        of_check_error := fun _ he => by cases he
        of_stop := fun _ hne => absurd hzero hne
        plain_fails_iff := Outcome.status_ofTurns_eq_one
        going_fails_iff := Outcome.status_ofTurns_eq_one }
  · -- one run ends with the turn that fails, and the other goes on behind it
    obtain ⟨result, lines, rfl⟩ := h turn (by simp)
    obtain ⟨stop, rfl⟩ : ∃ stop, result = .error stop := by
      cases result with
      | ok u => cases hfailed
      | error stop => exact ⟨stop, rfl⟩
    have hfails : ∀ rest, (Outcome.ofTurns s
        (before ++ .executed (.error stop) lines :: rest)).status ≠ 0 := by
      intro rest hzero
      have hmem : Turn.executed (.error stop) lines ∈
          before ++ .executed (.error stop) lines :: rest := by simp
      cases Outcome.status_ofTurns_eq_zero.mp hzero _ hmem
    rw [huntil]
    exact
      { succeeds_iff := iff_of_false (hfails []) (hfails after)
        of_success := fun hzero => absurd hzero (hfails [])
        of_check_error := fun _ he => by cases he
        of_stop := fun _ _ => by
          refine ⟨stop, Outcome.reports_ofTurns_of_stop hbefore, ?_, ?_⟩
          · rw [Outcome.reports_ofTurns_of_stop hbefore]
            rfl
          · refine ⟨(Outcome.ofTurns s after).stdout, ?_⟩
            rw [← Outcome.stdout_ofTurns_append, List.append_assoc]
            rfl
        plain_fails_iff := Outcome.status_ofTurns_eq_one
        going_fails_iff := Outcome.status_ofTurns_eq_one }

end RunsAgree

/-! ### Turns with and without checking -/

namespace Session

variable {depth : ℕ} {σ : Session} {p : Program}

/-- Without checking, `turns` do not depend on the context. -/
theorem turns_withContext (σ : Session) (Γ : Context) (p : Program) :
    (({ σ with context := Γ } : Session).turns depth false p).1 = (σ.turns depth false p).1 := by
  induction p generalizing σ with
  | nil => rfl
  | cons st p ih =>
    have hnext := ih (σ.turn depth false st).2
    exact congrArg ((σ.turn depth false st).1 :: ·) hnext

/-- The `turns` of a program whose first statement does not check begin with the rejection. -/
theorem turns_cons_of_check_error {st : Stmt} {e : LangError} {Γ : Context}
    (h : outcome (Check.stmt st) σ.context = (.error e, Γ)) (p : Program) :
    (σ.turns depth true (st :: p)).1 =
      .rejected e :: (({ σ with context := Γ } : Session).turns depth true p).1 := by
  rw [turns, turn_of_check_error (check_eq h)]

/-- The turns of a program whose first statement checks are the turn without a check, and those of
the rest in the context `Γ` after the check. -/
theorem turns_cons_of_check_ok {st : Stmt} {u : Unit} {Γ : Context}
    (h : outcome (Check.stmt st) σ.context = (.ok u, Γ)) (p : Program) :
    (σ.turns depth true (st :: p)).1 = (σ.turn depth false st).1 ::
      (({ (σ.turn depth false st).2 with context := Γ } : Session).turns depth true p).1 := by
  rw [turns, turn_of_check_ok (check_eq h)]
  rfl

/-- A program that checks has the same `turns` with and without checking: whether its statements
stop in execution makes no difference to checking them. -/
theorem turns_eq_of_checks (depth : ℕ) {Γ : Context} (h : p.Checks Ty.sameTag σ.context Γ) :
    (σ.turns depth true p).1 = (σ.turns depth false p).1 := by
  generalize hstart : σ.context = Γ₀ at h
  induction h generalizing σ with
  | nil => rfl
  | @cons Γ₀ Γ₁ Γ st p hst hp ih =>
    subst hstart
    -- the turn changes the machine only, so the rest is checked in `Γ₁`, however the turn ends
    rw [turns_cons_of_check_ok (Check.stmtWith_eq_ok (u := ()).mpr hst), ih rfl, turns_withContext]
    rfl

/-- The first error in checking a program is the first `Turn.rejected` among its turns. -/
theorem exists_rejected (depth : ℕ) {e : LangError} {Γ : Context}
    (h : outcome (Check.program p) σ.context = (.error e, Γ)) :
    ∃ before after : List Turn, (σ.turns depth true p).1 = before ++ .rejected e :: after ∧
      ∀ turn ∈ before, ∃ result lines, turn = .executed result lines := by
  induction p generalizing σ with
  | nil => cases h
  | cons st p ih =>
    rw [Check.program, List.forM, outcome_bind] at h
    rcases hst : outcome (Check.stmt st) σ.context with ⟨e' | u, Γ₁⟩
    · rw [hst] at h
      cases h
      exact ⟨[], _, turns_cons_of_check_error hst p, List.forall_mem_nil _⟩
    · rw [hst] at h
      rw [turns_cons_of_check_ok hst]
      -- the statements after this one find the context in which the whole program is checked
      let τ : Session := { (σ.turn depth false st).2 with context := Γ₁ }
      have hrest : outcome (Check.program p) τ.context = (.error e, Γ) := h
      obtain ⟨before, after, hturns, hbefore⟩ := ih hrest
      refine ⟨(σ.turn depth false st).1 :: before, after, by rw [hturns]; rfl, ?_⟩
      exact List.forall_mem_cons.mpr ⟨⟨_, _, rfl⟩, hbefore⟩

theorem executed_of_mem_turns {turn : Turn} (h : turn ∈ (σ.turns depth false p).1) :
    ∃ result lines, turn = .executed result lines := by
  induction p generalizing σ with
  | nil => cases h
  | cons st p ih =>
    rcases List.mem_cons.mp h with rfl | h
    · exact ⟨_, _, rfl⟩
    · exact ih h

end Session

/-! ### Two ways to run a program -/

/-- The settings of a run that checks and keeps no record, and that keeps going or not. -/
def Config.checked (c : Config) (keepGoing : Bool) : Config :=
  { c with typecheck := true, trace := false, keepGoing }

section Runs

variable {depth : ℕ} {c : Config} {s : Source} {p : Program}

theorem runProgram_of_untraced (hc : c.trace = false) :
    runProgram depth c s p =
      match if c.typecheck && !c.keepGoing then
          ((Session.start c.builtins).check (Check.program p)).1 else .ok () with
      | .error e => .failure [s.reportCheck e]
      | .ok _ =>
        let (succeeded, written) := runStatements depth c s (Session.start c.builtins) p
        ⟨if succeeded then 0 else 1, written⟩ := by
  rw [runProgram, hc]
  rfl

/-- A run that keeps going shows the `Session.turns` of the program, checked one by one. -/
theorem runProgram_checked_true :
    runProgram depth (c.checked true) s p =
      .ofTurns s ((Session.start c.builtins).turns depth true p).1 := by
  have hrun : runStatements depth (c.checked true) s (Session.start c.builtins) p = _ :=
    runStatements_keepGoing rfl rfl p
  rw [runProgram_of_untraced rfl]
  exact congrArg (fun r : Bool × List Written => Outcome.mk (if r.1 then 0 else 1) r.2) hrun

/-- A run that does not keep going reports the first error of `Check.program`. -/
theorem runProgram_checked_false_of_error {e : LangError} {Γ : Context}
    (h : outcome (Check.program p) (Session.start c.builtins).context = (.error e, Γ)) :
    runProgram depth (c.checked false) s p = .failure [s.reportCheck e] := by
  have hcheck : ((Session.start (c.checked false).builtins).check (Check.program p)).1 = .error e :=
    congrArg Prod.fst h
  rw [runProgram_of_untraced rfl, hcheck]
  rfl

/-- A run that does not keep going shows the turns of a program that checks, up to
`Turn.untilFailure`. -/
theorem runProgram_checked_false_of_ok {Γ : Context}
    (h : outcome (Check.program p) (Session.start c.builtins).context = (.ok (), Γ)) :
    runProgram depth (c.checked false) s p =
      .ofTurns s (Turn.untilFailure ((Session.start c.builtins).turns depth true p).1) := by
  have hcheck : ((Session.start (c.checked false).builtins).check (Check.program p)).1 = .ok () :=
    congrArg Prod.fst h
  have hrun : runStatements depth (c.checked false) s (Session.start c.builtins) p = _ :=
    runStatements_untilFailure rfl rfl p
  rw [runProgram_of_untraced rfl, hcheck, Session.turns_eq_of_checks depth
    (Check.forM_stmtWith_eq_ok.mp h)]
  exact congrArg (fun r : Bool × List Written => Outcome.mk (if r.1 then 0 else 1) r.2) hrun

end Runs

/-- A run that keeps going and a run that does not answer alike, as far as the latter comes:
`RunsAgree` for every program `p` and all settings `c`. -/
theorem runProgram_keepGoing_agrees (depth : ℕ) (c : Config) (s : Source) (p : Program) :
    RunsAgree s ((Session.start c.builtins).check (Check.program p)).1
      (runProgram depth (c.checked false) s p) (runProgram depth (c.checked true) s p) := by
  rw [runProgram_checked_true]
  rcases hcheck : outcome (Check.program p) (Session.start c.builtins).context with ⟨e | u, Γ⟩
  · have hchecks : ((Session.start c.builtins).check (Check.program p)).1 = .error e :=
      congrArg Prod.fst hcheck
    obtain ⟨before, after, hturns, hbefore⟩ := Session.exists_rejected depth hcheck
    rw [hchecks, runProgram_checked_false_of_error hcheck, hturns]
    exact .of_rejected hbefore
  · have hchecks : ((Session.start c.builtins).check (Check.program p)).1 = .ok () :=
      congrArg Prod.fst hcheck
    have hturns := Session.turns_eq_of_checks depth (Check.forM_stmtWith_eq_ok.mp hcheck)
    rw [hchecks, runProgram_checked_false_of_ok hcheck, hturns]
    exact .of_executed fun turn => Session.executed_of_mem_turns

end Casewise
