import Casewise.Proofs.Reading.Statements
import Casewise.Proofs.Spans.Origins

/-!
# Errors have places

Most errors are raised without a place, and the constructs around them offer theirs, the innermost
first. The last to offer is the statement, and a statement that was read from a text has a span. So
no error of such a program is without a place. What is left to say is which node the place belongs
to: in checking, to one of the first statement that fails; in execution, to one of the first
statement that stops, or to one in the body of a function that stands in a statement before.

## Main definitions

* `FailsAt`: the first member of a list at which a computation fails.
* `Stmt.spans`: the spans of the nodes of a statement.

## Main statements

* `Program.isSome_span_of_parse`: the statements of a text have spans.
* `Program.errors_located`: where a program that was read fails to check, and where it stops.
-/

namespace Casewise

/-! ### The first failure -/

section FirstFailure

variable {ε σ α : Type} {f : α → ExceptT ε (StateM σ) Unit}

/-- Going through the list `as` from the state `s` by `f` comes to the member `a` after the members
`before`, and fails there with the error `e`. -/
structure FailsAt (f : α → ExceptT ε (StateM σ) Unit) (s : σ) (as : List α) (e : ε)
    (before : List α) (a : α) : Prop where
  /-- The member comes after those before it. -/
  eq_append : ∃ after, as = before ++ a :: after
  /-- Those before it do not fail, and it does. -/
  fails : ∃ s₁, outcome (before.forM f) s = (.ok (), s₁) ∧ (outcome (f a) s₁).1 = .error e

/-- If `forM` over a list fails, it does so at a first member, by `FailsAt`. -/
theorem exists_failsAt {as : List α} {s : σ} {e : ε} (h : (outcome (as.forM f) s).1 = .error e) :
    ∃ before a, FailsAt f s as e before a := by
  induction as generalizing s with
  | nil => cases h
  | cons a as ih =>
    rcases ha : outcome (f a) s with ⟨e' | u, s₁⟩
    · rw [List.forM, outcome_bind_of_error ha] at h
      cases h
      exact ⟨[], a, ⟨as, rfl⟩, s, rfl, congrArg Prod.fst ha⟩
    · rw [List.forM, outcome_bind_of_ok ha] at h
      obtain ⟨before, b, ⟨after, rfl⟩, s₂, hbefore, hb⟩ := ih h
      refine ⟨a :: before, b, ⟨after, rfl⟩, s₂, ?_, hb⟩
      rw [List.forM, outcome_bind_of_ok ha, hbefore]

theorem outcome_forM_singleton {a : α} {s : σ} {e : ε} (h : (outcome (f a) s).1 = .error e) :
    outcome ([a].forM f) s = (.error e, (outcome (f a) s).2) := by
  have ha : outcome (f a) s = (.error e, (outcome (f a) s).2) := Prod.ext h rfl
  rw [List.forM, outcome_bind_of_error ha]

end FirstFailure

/-! ### The spans of statements -/

/-- The spans of the nodes of the statement. -/
def Stmt.spans (st : Stmt) : List Span :=
  st.outerSpans ++ st.bodySpans

theorem Program.spans_singleton (st : Stmt) : Program.spans [st] = st.spans := by
  rw [spans, bodySpans, List.flatMap_singleton, List.flatMap_singleton, Stmt.spans]

theorem Stmt.span_of_ofSexp {e : Sexp} {d d' : Declared} {st : Stmt}
    (h : outcome (Stmt.ofSexp e) d = (.ok st, d')) : st.span = some e.span := by
  obtain ⟨hst, -⟩ := Stmt.outcome_ofSexp_eq_ok.mp h
  cases hst <;> rfl

/-- The statements that `parse` reads have spans. -/
theorem Program.isSome_span_of_parse {file source : String} {p : Program}
    (h : parse file source = .ok p) : ∀ st ∈ p, st.span.isSome := by
  obtain ⟨es, d, -, hp⟩ := parse_eq_ok.mp h
  clear h
  generalize ({} : Declared) = d₀ at hp
  induction es generalizing d₀ p with
  | nil =>
    cases hp
    exact nofun
  | cons e es ih =>
    obtain ⟨st, d₁, q, hst, hq, rfl⟩ := outcome_mapM_cons_eq_ok.mp hp
    refine List.forall_mem_cons.mpr ⟨?_, ih d₁ hq⟩
    rw [Stmt.span_of_ofSexp hst, Option.isSome_some]

/-! ### Errors of statements -/

theorem LangError.isSome_span_placedAt {span : Option Span} (h : span.isSome) (e : LangError) :
    (e.placedAt span).span.isSome := by
  obtain ⟨cause, _ | s⟩ := e
  · exact h
  · rfl

theorem Check.stopsOnly_placed {st : Stmt} (hst : st.span.isSome) :
    StopsOnly (·.span.isSome) (stmt st) := by
  rw [stmt, stmtWith.eq_def]
  exact StopsOnly.adapt (fun _ _ _ => trivial) fun e _ => LangError.isSome_span_placedAt hst e

/-- `Execute.stmt` of a statement with a span is stopped at a place, if it is stopped by an
error. -/
theorem Execute.stopsOnly_placed {st : Stmt} (hst : st.span.isSome) (depth : ℕ) (s : ScopeId) :
    StopsOnly (fun stop => ∀ e, stop = .error e → e.span.isSome) (stmt depth s st) := by
  rw [stmt.eq_def]
  refine StopsOnly.adapt (fun _ _ _ => trivial) fun stop _ e he => ?_
  cases stop with
  | error e' =>
    cases he
    exact LangError.isSome_span_placedAt hst e'
  | unknownOperator name => cases he
  | tooDeep => cases he

/-! ### Errors of programs -/

/-- An error of a program that was read has a place. In checking, it is the span of a node of the
first statement that `FailsAt` checking. In execution, whether the program was checked or not, it is
the span of a node of the first statement that stops, or of a node in the body of a function that
stands in a statement before. -/
theorem Program.errors_located {file source : String} {p : Program}
    (h : parse file source = .ok p) (builtins recording : Bool) :
    (∀ e, (outcome (Check.program p) (Session.start builtins recording).context).1 = .error e →
      ∃ before st, FailsAt Check.stmt (Session.start builtins recording).context p e before st ∧
        ∃ t ∈ st.spans, e.span = some t) ∧
    ∀ depth e, (outcome (Execute.program depth Machine.root p)
        (Session.start builtins recording).machine).1 = .error (.error e) →
      ∃ before st, FailsAt (Execute.stmt depth Machine.root)
          (Session.start builtins recording).machine p (.error e) before st ∧
        ∃ t, e.span = some t ∧
          (t ∈ st.spans ∨ ∃ earlier ∈ before, t ∈ earlier.bodySpans) := by
  have hspans := isSome_span_of_parse h
  constructor
  · intro e he
    obtain ⟨before, st, hfails⟩ := exists_failsAt he
    obtain ⟨after, hp⟩ := hfails.eq_append
    obtain ⟨Γ, -, hst⟩ := hfails.fails
    have hspan : st.span.isSome := hspans st (by simp [hp])
    have hplaced := Check.stopsOnly_placed hspan Γ e hst
    obtain ⟨t, ht⟩ := Option.isSome_iff_exists.mp hplaced
    have hmem := Check.span_mem_of_program (outcome_forM_singleton hst) ht
    rw [spans_singleton] at hmem
    exact ⟨before, st, hfails, t, hmem, ht⟩
  · intro depth e he
    obtain ⟨before, st, hfails⟩ := exists_failsAt he
    obtain ⟨after, hp⟩ := hfails.eq_append
    obtain ⟨m, hbefore, hst⟩ := hfails.fails
    have hspan : st.span.isSome := hspans st (by simp [hp])
    have hplaced := Execute.stopsOnly_placed hspan depth Machine.root m _ hst e rfl
    obtain ⟨t, ht⟩ := Option.isSome_iff_exists.mp hplaced
    -- the functions that there are by now have been made by the statements before
    have hwithin := Execute.within_program (Session.within_start builtins recording) depth
      Machine.root before
    have hm : (outcome (Execute.program depth Machine.root before)
        (Session.start builtins recording).machine).2 = m := congrArg Prod.snd hbefore
    rw [hm, List.nil_append] at hwithin
    refine ⟨before, st, hfails, t, ht, ?_⟩
    rcases Execute.span_mem_of_program hwithin (outcome_forM_singleton hst) ht with hmem | hmem
    · exact .inr (List.mem_flatMap.mp hmem)
    · rw [spans_singleton] at hmem
      exact .inl hmem

/-- A function that negates a number, and a call of it. -/
private def negatedNumber : String :=
  "(define f (lambda x Nat (not x))) (print (f 1))"

/-- The negation in the text. -/
private def negation : Span :=
  ⟨"main", ⟨1, 25⟩, ⟨1, 31⟩⟩

/-- Checking `negatedNumber` fails at the `negation`, in the definition. Without checking, the call
stops there too, now in a statement before the one that stops. -/
theorem Program.errors_located_negatedNumber : ∃ p, parse "main" negatedNumber = .ok p ∧
    (∃ e before st, FailsAt Check.stmt (Session.start true).context p e before st ∧
      e.span = some negation ∧ negation ∈ st.spans) ∧
    ∃ e before st, FailsAt (Execute.stmt 9 Machine.root) (Session.start true).machine p (.error e)
        before st ∧
      e.span = some negation ∧
      (negation ∈ st.spans ∨ ∃ earlier ∈ before, negation ∈ earlier.bodySpans) := by
  have hholds : (parse "main" negatedNumber).toOption.map (fun p =>
      ((outcome (Check.program p) (Session.start true).context).1,
        (outcome (Execute.program 9 Machine.root p) (Session.start true).machine).1)) =
      some (.error ⟨.typeMismatch "type mismatch in 'not': expected Bool, found Nat", negation⟩,
        .error (.error ⟨.typeMismatch "'not' expects a boolean but a number was given",
          negation⟩)) := by
    decide +kernel
  obtain ⟨p, hparse, hp⟩ := exists_ok_of_map_toOption hholds
  obtain ⟨hcheck, hrun⟩ := Prod.mk.inj hp
  obtain ⟨hchecked, hexecuted⟩ := errors_located hparse true false
  refine ⟨p, hparse, ?_, ?_⟩
  · obtain ⟨before, st, hfails, t, ht, hspan⟩ := hchecked _ hcheck
    obtain rfl := Option.some.inj hspan
    exact ⟨_, before, st, hfails, rfl, ht⟩
  · obtain ⟨before, st, hfails, t, hspan, ht⟩ := hexecuted 9 _ hrun
    obtain rfl := Option.some.inj hspan
    exact ⟨_, before, st, hfails, rfl, ht⟩

end Casewise
