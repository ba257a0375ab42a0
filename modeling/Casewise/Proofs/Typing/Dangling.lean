import Casewise.Proofs.Command.Turns
import Casewise.Proofs.Running.Failing
import Casewise.Proofs.Typing.Mentions

/-!
# Data types that dangle

A text may be read as a program although one of its data declarations will be rejected, for instance
because it lists a constructor twice. The name of the data type can be written from then on, and the
checker goes on with the statements after the declaration. Does a type then mention a data type that
is not declared? The types of constructors do not, because their fields are checked. The types that
a function gives to its parameters are not checked in this way. They are the only way in.

## Main definitions

* `Context.afterEach`: the context after statements that are checked one by one.

## Main statements

* `Session.context_turns`: a run that keeps going checks its statements one by one.
* `Context.Within.afterEach`: where the data types come from that the types of names mention.
* `Context.declared_or_annotated`: a data type that is mentioned and not declared has been rejected,
  and is the type of a parameter.
-/

namespace Casewise

variable {agree : Ty → Ty → Bool} {Γ Γ' : Context} {st : Stmt} {known : String → Prop}

/-! ### Single statements -/

namespace Context.Within

variable {known' : String → Prop}

theorem mono (h : Γ.Within known) (hknown : ∀ name, known name → known' name) :
    Γ.Within known' where
  levels level hlevel := (h.levels level hlevel).imp fun _ hty => hty.mono hknown
  knows name hname := hknown name (h.knows name hname)
  closed := h.closed

/-- A statement that `Checks` brings in the data types of its annotations and the one that it
declares, and no others. -/
theorem stmt (h : Γ.Within known) (hchecks : st.Checks agree Γ Γ') {d : Declared}
    (hst : st.Readable d) (hannotations : ∀ ty ∈ st.annotations, ty.Within known) :
    Γ'.Within fun name => known name ∨ Γ'.registry.Knows name := by
  have hlater : Γ.Within fun name => known name ∨ Γ'.registry.Knows name := h.mono fun _ => .inl
  have hafter : Γ'.OfKind (Ty.Within fun name => known name ∨ Γ'.registry.Knows name) := by
    refine hlater.ofKind.of_checks Ty.closedKind_within hchecks
      (fun ty hty => (hannotations ty hty).mono fun _ => .inl) fun ty hty => ?_
    exact (hchecks.within_declaredTys hst ty hty).mono fun _ => .inr
  exact ⟨hafter.levels, fun _ => .inr, hchecks.closed hst h.closed⟩

end Context.Within

/-! ### Statements one by one -/

/-- The context after a statement has been checked, whether it checks or not. -/
def Context.after (Γ : Context) (st : Stmt) : Context :=
  (outcome (Check.stmt st) Γ).2

/-- The context after the statements have been checked one by one, whether they check or not. -/
def Context.afterEach (Γ : Context) (p : Program) : Context :=
  p.foldl Context.after Γ

/-- `Context.after` a statement the context has changed, or the statement has been rejected. -/
theorem Context.after_cases (Γ : Context) (st : Stmt) :
    st.Checks Ty.sameTag Γ (Γ.after st) ∨
      (∃ e, (outcome (Check.stmt st) Γ).1 = .error e) ∧ Γ.after st = Γ := by
  rw [after]
  rcases hout : outcome (Check.stmt st) Γ with ⟨e | u, Γ'⟩
  · exact .inr ⟨⟨e, rfl⟩, (Check.failsWithin_stmt st e Γ' hout).symm⟩
  · exact .inl (Check.stmtWith_eq_ok.mp hout)

/-- After a `turn` the context is as after a check, because executing leaves it alone. -/
theorem Session.context_turn (depth : ℕ) (σ : Session) (st : Stmt) :
    (σ.turn depth true st).2.context = σ.context.after st := by
  rw [Context.after]
  rcases hcheck : outcome (Check.stmt st) σ.context with ⟨e | u, Γ⟩
  · rw [turn_of_check_error (check_eq hcheck)]
  · rw [turn_of_check_ok (check_eq hcheck)]
    rfl

/-- A run that keeps going leaves the context as it is `afterEach` of its statements has been
checked. -/
theorem Session.context_turns (depth : ℕ) (σ : Session) (p : Program) :
    (σ.turns depth true p).2.context = σ.context.afterEach p := by
  induction p generalizing σ with
  | nil => rfl
  | cons st p ih =>
    rw [turns, Context.afterEach, List.foldl_cons, ← context_turn depth]
    exact ih _

namespace Context

/-- Declared data types stay declared `afterEach` statement. -/
theorem knows_afterEach {name : String} (h : Γ.registry.Knows name) (p : Program) :
    (Γ.afterEach p).registry.Knows name := by
  induction p generalizing Γ with
  | nil => exact h
  | cons st p ih =>
    refine ih ?_
    rcases Γ.after_cases st with hchecks | ⟨-, hsame⟩
    · exact hchecks.knows h
    · rwa [hsame]

/-- A data type that the registry does not know `afterEach` statement has been rejected by its
declaration. -/
theorem exists_error_of_not_knows {name : String} {first rest : Program}
    {constructors : List ConstructorDecl} {span : Option Span}
    (h : ¬ (Γ.afterEach (first ++ .data name constructors span :: rest)).registry.Knows name) :
    ∃ e, (outcome (Check.stmt (.data name constructors span)) (Γ.afterEach first)).1 =
      .error e := by
  rcases (Γ.afterEach first).after_cases (.data name constructors span) with
    hchecks | ⟨herror, -⟩
  · refine absurd ?_ h
    rw [afterEach, List.foldl_append, List.foldl_cons]
    exact knows_afterEach hchecks.knows_data rest
  · exact herror

/-- If every data type that the annotations of statements mention is one of `P`, the types of names
mention declared data types and those of `P` only. -/
theorem Within.afterEach {P : String → Prop} {p : Program} {d : Declared} (hp : p.Readable d)
    (hannotations : ∀ st ∈ p, ∀ ty ∈ st.annotations, ty.Within P)
    (h : Γ.Within fun name => Γ.registry.Knows name ∨ P name) :
    (Γ.afterEach p).Within fun name => (Γ.afterEach p).registry.Knows name ∨ P name := by
  induction p generalizing Γ d with
  | nil => exact h
  | cons st p ih =>
    obtain ⟨hst, hannotations⟩ := List.forall_mem_cons.mp hannotations
    refine ih hp.2 hannotations ?_
    rcases Γ.after_cases st with hchecks | ⟨-, hsame⟩
    · have hlater := h.stmt hchecks hp.1 fun ty hty => (hst ty hty).mono fun _ => .inr
      refine hlater.mono fun name hname => ?_
      rcases hname with (hold | hP) | hnew
      · exact .inl (hchecks.knows hold)
      · exact .inr hP
      · exact .inl hnew
    · rwa [hsame]

/-- At the beginning names mean types of any `ClosedKind`, and nothing is declared. -/
theorem OfKind.start {K : Ty → Prop} (hK : Ty.ClosedKind K) (builtins : Bool) :
    (Session.start builtins).context.OfKind K where
  levels := by
    have halike : Table.Alike (fun ty _ => K ty)
        (if builtins then Builtin.types else ∅) (if builtins then Builtin.values else ∅) :=
      Builtin.alike_start hK.signature builtins
    refine List.forall_mem_singleton.mpr fun name ty hty => ?_
    obtain ⟨v, -, hkind⟩ := halike.get?_eq_some hty
    exact hkind
  data hinfo := nomatch hinfo
  fields hinfo := nomatch hinfo

/-- At `Session.start` no data type is mentioned or declared. -/
theorem Within.start (builtins : Bool) (known : String → Prop) :
    (Session.start builtins).context.Within known where
  levels := (OfKind.start Ty.closedKind_within builtins).levels
  knows _ hname := nomatch hname
  closed := .empty

end Context

/-- A data type that a statement of a program `mentions` is declared before, or by the statement
itself. -/
theorem Stmt.WellFormed.exists_data_of_mentions {before : Program}
    (h : st.WellFormed before) {ty : Ty}
    (hty : ty ∈ st.annotations) {owner : String} (howner : owner ∈ ty.mentions) :
    ∃ constructors span, .data owner constructors span ∈ before := by
  cases st with
  | define name value span =>
    obtain ⟨part, hpart, hpartOwner⟩ := List.mem_filterMap.mp howner
    have hmem : part ∈ (Stmt.define name value span).types := by
      refine Ty.mem_partsAll.mpr ⟨ty, List.mem_append_right _ ?_, hpart⟩
      obtain ⟨e, he, hty⟩ := List.mem_flatMap.mp hty
      exact List.mem_flatMap.mpr ⟨e, List.mem_append_left _ he, hty⟩
    cases part with
    | data own =>
      cases hpartOwner
      obtain ⟨constructors, span', hdata⟩ := h.dataType _ hmem
      refine ⟨constructors, span', (List.mem_append.mp hdata).resolve_right ?_⟩
      simp
    | construct own args owner' => exact absurd hmem (h.construct own args owner')
    | _ => cases hpartOwner
  | _ => cases hty

/-- If the statements of a program are checked one by one, whether they check or not, and a type of
a name `mentions` a data type, then the data type is declared, or its declarations have been
rejected and a definition gives a type that mentions it to a parameter, in its `annotations`. -/
theorem Context.declared_or_annotated {file source : String} {before after : Program}
    (hparse : parse file source = .ok (before ++ after)) (builtins : Bool) :
    let start := (Session.start builtins).context
    ∀ name ty, (start.afterEach before).get? name = some ty → ∀ owner ∈ ty.mentions,
      ((start.afterEach before).registry.data? owner).isSome = true ∨
      (∃ first constructors span rest e, before = first ++ .data owner constructors span :: rest ∧
        (outcome (Check.stmt (.data owner constructors span))
          (start.afterEach first)).1 = .error e) ∧
      ∃ st ∈ before, ∃ annotation ∈ st.annotations, owner ∈ annotation.mentions := by
  intro start name ty hname owner howner
  have hreadable := (Program.readable_append.mp (Program.readable_of_parse hparse)).1
  have hwithin := (Within.start builtins _).afterEach hreadable fun st hst ty hty owner howner =>
    (⟨st, hst, ty, hty, howner⟩ : ∃ st ∈ before, ∃ annotation ∈ st.annotations,
      owner ∈ annotation.mentions)
  rcases hwithin.get? hname owner howner with hknows | hannotated
  · exact .inl hknows
  by_cases hknows : (start.afterEach before).registry.Knows owner
  · exact .inl hknows
  refine .inr ⟨?_, hannotated⟩
  -- what is written in a definition has been declared before, so this declaration was rejected
  obtain ⟨st, hst, annotation, hannotation, howner⟩ := hannotated
  obtain ⟨first, rest, rfl⟩ := List.append_of_mem hst
  have hwell := hreadable.wellFormed first st rest rfl
  obtain ⟨constructors, span, hdata⟩ := hwell.exists_data_of_mentions hannotation howner
  obtain ⟨first', rest', rfl⟩ := List.append_of_mem hdata
  rw [List.append_assoc, List.cons_append] at hknows
  obtain ⟨e, he⟩ := exists_error_of_not_knows hknows
  exact ⟨first', constructors, span, rest' ++ st :: rest, e, by simp, he⟩

/-- A program whose data type is rejected, because it lists a constructor twice, and is then the
type of a parameter. -/
private def rejectedParameter : String :=
  "(data D (A) (A)) (define f (lambda x D x))"

private theorem exists_rejectedParameter : ∃ p, parse "main" rejectedParameter = .ok p ∧
    ((Session.start true).context.afterEach p).get? "f" = some (.arrow [.data "D"] (.data "D")) ∧
    ((Session.start true).context.afterEach p).registry.data? "D" = none := by
  have hholds : (parse "main" rejectedParameter).toOption.map (fun p =>
      (((Session.start true).context.afterEach p).get? "f",
        ((Session.start true).context.afterEach p).registry.data? "D")) =
      some (some (.arrow [.data "D"] (.data "D")), none) := by
    decide +kernel
  obtain ⟨p, hparse, hp⟩ := exists_ok_of_map_toOption hholds
  obtain ⟨htype, hdata⟩ := Prod.mk.inj hp
  exact ⟨p, hparse, htype, hdata⟩

/-- In `rejectedParameter` the data type has been rejected, and a definition gives it to a
parameter. -/
theorem Context.declared_or_annotated_rejectedParameter :
    ∃ p, parse "main" rejectedParameter = .ok p ∧
      (∃ first constructors span rest e, p = first ++ .data "D" constructors span :: rest ∧
        (outcome (Check.stmt (.data "D" constructors span))
          ((Session.start true).context.afterEach first)).1 = .error e) ∧
      ∃ st ∈ p, ∃ annotation ∈ st.annotations, "D" ∈ annotation.mentions := by
  obtain ⟨p, hparse, htype, hdata⟩ := exists_rejectedParameter
  have hparsed : parse "main" rejectedParameter = .ok (p ++ []) := by rw [hparse, List.append_nil]
  refine ⟨p, hparse, (declared_or_annotated hparsed true "f" _ htype "D" ?_).resolve_left ?_⟩
  · decide
  · rw [hdata]
    exact nofun

/-- So, by `rejectedParameter`, not every data type that the type of a name `mentions` is
declared. -/
theorem Context.not_declared_rejectedParameter :
    ¬ ∀ file source p, parse file source = .ok p → ∀ builtins name ty,
      ((Session.start builtins).context.afterEach p).get? name = some ty → ∀ owner ∈ ty.mentions,
        (((Session.start builtins).context.afterEach p).registry.data? owner).isSome = true := by
  intro hall
  obtain ⟨p, hparse, htype, hdata⟩ := exists_rejectedParameter
  have hdeclared := hall "main" rejectedParameter p hparse true "f" _ htype "D" (by decide)
  rw [hdata] at hdeclared
  cases hdeclared

end Casewise
