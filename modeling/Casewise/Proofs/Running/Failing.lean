import Casewise.Proofs.Running.Growth
import Casewise.Proofs.Running.Programs

/-!
# Statements that fail

A statement that fails leaves no trace. Most statements change something only in their last step,
so that whatever fails before has changed nothing. A data declaration changes several things, one
after the other: it declares the data type and then binds each constructor. Its checks come before
all of them, and they are enough: once the data type is declared, no constructor is bound in vain.

Expressions change nothing to begin with. A type is found by looking at the context, which is given
to inference as a value and cannot change, and a value in scopes of its own.

## Main definitions

* `FailsWithin`: what a computation that fails leaves behind.

## Main statements

* `Check.failsWithin_stmt`: a statement that does not check leaves the context as it was.
* `Execute.failsWithin_stmt`: a statement that stops leaves the scopes, the data types and the
  printed lines as they were.
* `Stmt.fails_without_trace`: both, together with the purity of expressions.
-/

namespace Casewise

/-! ### Computations that fail -/

section Failing

variable {ε ε' σ α β : Type} {rel : σ → σ → Prop} {s : σ}

/-- If the computation fails from the state `s`, it leaves a state that is related to `s`. -/
def FailsWithin (rel : σ → σ → Prop) (x : ExceptT ε (StateM σ) α) (s : σ) : Prop :=
  ∀ e s', outcome x s = (.error e, s') → rel s s'

namespace FailsWithin

variable {x : ExceptT ε (StateM σ) α} {f : α → ExceptT ε (StateM σ) β}

theorem of_leaves (h : rel s (outcome x s).2) : FailsWithin rel x s := by
  intro e s' hx
  rwa [hx] at h

theorem bind [IsTrans σ rel] (hx : rel s (outcome x s).2)
    (hf : ∀ a s', outcome x s = (.ok a, s') → FailsWithin rel (f a) s') :
    FailsWithin rel (x >>= f) s := by
  intro e s'' h
  rw [outcome_bind] at h
  rcases hout : outcome x s with ⟨e' | a, s'⟩
  · rw [hout] at h hx
    cases h
    exact hx
  · rw [hout] at h hx
    exact IsTrans.trans _ _ _ hx (hf a s' hout e s'' h)

/-- `x >>= f` fails in `x` if `f` never fails after a result. -/
theorem bind_of_ok (hx : FailsWithin rel x s)
    (hf : ∀ a s', outcome x s = (.ok a, s') → ∃ b s'', outcome (f a) s' = (.ok b, s'')) :
    FailsWithin rel (x >>= f) s := by
  intro e s'' h
  rw [outcome_bind] at h
  rcases hout : outcome x s with ⟨e' | a, s'⟩
  · rw [hout] at h
    cases h
    exact hx _ _ hout
  · rw [hout] at h
    obtain ⟨b, t, hok⟩ := hf a s' hout
    cases hok.symm.trans h

theorem adapt (hx : FailsWithin rel x s) (g : ε → ε') : FailsWithin rel (ExceptT.adapt g x) s := by
  intro e s' h
  rw [outcome_adapt] at h
  rcases hout : outcome x s with ⟨e' | a, t⟩
  · rw [hout] at h
    cases h
    exact hx _ _ hout
  · rw [hout] at h
    cases h

end FailsWithin

end Failing

/-! ### Checking -/

namespace Check

variable {agree : Ty → Ty → Bool} {Γ : Context}

theorem outcome_withContext {α : Type} (f : Context → Except LangError α) (Γ : Context) :
    outcome (withContext f) Γ = (f Γ, Γ) :=
  rfl

/-- `update` that fails leaves the context as it was. -/
theorem failsWithin_update (f : Context → Except LangError Context) :
    FailsWithin Eq (update f) Γ := by
  intro e Γ' h
  rw [update, outcome_bind, outcome_withContext] at h
  cases hf : f Γ with
  | error e' =>
    rw [hf] at h
    cases h
    rfl
  | ok Γ'' =>
    rw [hf] at h
    cases h

theorem failsWithin_declare (name : String) (constructors : List (String × List Ty)) :
    FailsWithin Eq (Chain.declare name constructors) Γ := by
  intro e Γ' h
  obtain ⟨R, hR, rfl⟩ := Chain.outcome_declare_eq.mp h
  rw [(Registry.declare_eq_error hR).2]

/-- A `data` declaration that does not check leaves the context as it was. -/
theorem failsWithin_data (name : String) (constructors : List ConstructorDecl)
    (span : Option Span) : FailsWithin Eq (data name constructors span) Γ := by
  refine .bind rfl fun u Γ₁ hchecks => ?_
  obtain ⟨hchecks, rfl⟩ := outcome_withContext_eq_ok.mp hchecks
  refine (failsWithin_declare _ _).bind_of_ok fun u' Γ₂ hdeclared => ?_
  -- the checks have made sure that the constructors are new, and the declaration that they differ
  obtain ⟨R, hdeclare, rfl⟩ := Chain.outcome_declare_eq.mp hdeclared
  have hnames := Registry.nodup_of_declare hdeclare
  split at hchecks
  · cases hchecks
  · have hnew := fun c hc => (constructor_eq_ok.mp (forM_eq_ok.mp hchecks c hc)).1
    exact ⟨⟨⟩, _, outcome_forM_set_eq_ok.mpr ⟨hnew, hnames, rfl⟩⟩

/-- A statement that `stmtWith` rejects leaves the context as it was. -/
theorem failsWithin_stmt (s : Stmt) : FailsWithin Eq (stmtWith agree s) Γ := by
  rw [stmtWith.eq_def]
  refine FailsWithin.adapt ?_ _
  cases s with
  | define name value span =>
    refine .bind rfl fun ty Γ₁ _ => ?_
    exact failsWithin_update _
  | assign target value span => exact .of_leaves rfl
  | print value span => exact .bind rfl fun ty Γ₁ _ => .of_leaves rfl
  | data name constructors span => exact failsWithin_data name constructors span

end Check

/-! ### Running -/

/-- A machine may grow on. -/
instance : IsTrans Machine Machine.Grows :=
  ⟨fun _ _ _ => Machine.Grows.trans⟩

theorem Forest.hasLocal_write_of_ne {α : Type} {name other : String} (h : other ≠ name)
    (f : Forest α) (s : ScopeId) (a : α) :
    (f.write s name a).hasLocal s other = f.hasLocal s other := by
  rw [hasLocal, hasLocal, bindings, bindings, write, Array.getElem?_modify, if_pos rfl]
  cases f.scopes[s]? with
  | none => rfl
  | some scope => simp only [Option.map_some, Table.contains, Table.get?_insert_of_ne h]

/-- `declare` accepts only a data type with constructors that differ. -/
theorem Forest.nodup_of_declare {α : Type} {f f' : Forest α} {s : ScopeId} {name : String}
    {cs : List ConstructorDecl}
    (h : outcome (declare s name (cs.map fun c => (c.name, c.fields))) f = (.ok (), f')) :
    (cs.map ConstructorDecl.name).Nodup := by
  obtain ⟨R, hR, -⟩ := outcome_declare_eq.mp h
  exact Registry.nodup_of_declare hR

namespace Execute

variable {m : Machine} {s : ScopeId}

/-- `Run.update` that succeeds has put new scopes in place of the old ones. -/
theorem eq_of_outcome_update {f : Forest Value → Except LangError (Forest Value)} {m' : Machine}
    {u : PUnit} (h : outcome (Run.update f) m = (.ok u, m')) :
    ∃ scopes, f m.scopes = .ok scopes ∧ m' = { m with scopes } := by
  rw [Run.update, outcome_bind_of_ok (outcome_get m)] at h
  cases hf : f m.scopes with
  | error e =>
    rw [hf] at h
    cases h
  | ok scopes =>
    rw [hf] at h
    cases h
    exact ⟨scopes, rfl, rfl⟩

/-- `Run.update` that fails leaves the machine as it was. -/
theorem failsWithin_update (f : Forest Value → Except LangError (Forest Value)) :
    FailsWithin Machine.Grows (Run.update f) m := by
  intro e m' h
  rw [Run.update, outcome_bind_of_ok (outcome_get m)] at h
  cases hf : f m.scopes with
  | error e' =>
    rw [hf] at h
    cases h
    exact .of_scopes_eq rfl rfl
  | ok scopes =>
    rw [hf] at h
    cases h

/-- `Run.declare` that fails leaves the machine as it was. -/
theorem failsWithin_declare (name : String) (constructors : List (String × List Ty)) :
    FailsWithin Machine.Grows (Run.declare s name constructors) m := by
  refine FailsWithin.adapt (fun e m' h => ?_) _
  obtain ⟨scopes, hscopes, rfl⟩ := outcome_onPart_eq.mp h
  exact .of_scopes_eq (Forest.eq_of_declare_error hscopes) rfl

/-- New constructors that differ can be `set` one after the other. -/
theorem exists_outcome_forM_set {cs : List ConstructorDecl}
    (hnew : ∀ c ∈ cs, m.scopes.hasLocal s c.name = false)
    (hnodup : (cs.map ConstructorDecl.name).Nodup) :
    ∃ m', outcome (cs.forM fun c =>
      Run.update (·.set s c.name (.constructor c.name c.fields.length))) m = (.ok ⟨⟩, m') := by
  induction cs generalizing m with
  | nil => exact ⟨m, rfl⟩
  | cons c cs ih =>
    obtain ⟨hc, hcs⟩ := List.forall_mem_cons.mp hnew
    obtain ⟨hmem, hnodup⟩ := List.nodup_cons.mp hnodup
    have hset : m.scopes.set s c.name (.constructor c.name c.fields.length) =
        .ok (m.scopes.write s c.name (.constructor c.name c.fields.length)) := by
      rw [Forest.set, hc, if_neg Bool.false_ne_true]
    rw [List.forM, outcome_bind_of_ok (ProgramModel.outcome_update_of_ok hset)]
    refine ih (fun c' hc' => ?_) hnodup
    have hne : c'.name ≠ c.name := fun h => hmem (h ▸ List.mem_map_of_mem hc')
    rw [Forest.hasLocal_write_of_ne hne]
    exact hcs c' hc'

/-- Constructors that pass the check `undeclared` are new. -/
theorem hasLocal_eq_false_of_undeclared {name : String} {constructors : List ConstructorDecl}
    {span : Option Span} {f : Forest Value} {u : Unit}
    (h : undeclared s name constructors span f = .ok u) :
    ∀ c ∈ constructors, f.hasLocal s c.name = false := by
  intro c hc
  rw [undeclared] at h
  split at h
  · cases h
  · have hlocal := forM_eq_ok.mp h c hc
    split at hlocal
    · cases hlocal
    · next hnew => exact Bool.eq_false_iff.mpr hnew

/-- A `data` declaration that stops has declared nothing and bound nothing. -/
theorem failsWithin_data (name : String) (constructors : List ConstructorDecl)
    (span : Option Span) : FailsWithin Machine.Grows (data s name constructors span) m := by
  refine .bind (Run.OnlyAdds.withScopes _ m) fun r m₁ hr => ?_
  cases hr
  refine .bind (Run.OnlyAdds.ofExcept _ m) fun u m₁ hpassed => ?_
  obtain ⟨hchecks, rfl⟩ := Prod.mk.inj hpassed
  have hnew := hasLocal_eq_false_of_undeclared (mapError_eq_ok.mp hchecks)
  refine (failsWithin_declare _ _).bind_of_ok fun u' m₂ hdeclared => ?_
  -- the check has made sure that the constructors are new, and the declaration that they differ
  obtain ⟨scopes, hdeclare, rfl⟩ := Run.outcome_declare_eq_ok.mp hdeclared
  have hnodup := Forest.nodup_of_declare hdeclare
  have hkept : ∀ c ∈ constructors, scopes.hasLocal s c.name = false := fun c hc => by
    rw [Forest.hasLocal, Forest.bindings, Forest.scopes_of_declare hdeclare]
    exact hnew c hc
  obtain ⟨m', hset⟩ := exists_outcome_forM_set (m := { m with scopes }) hkept hnodup
  exact ⟨⟨⟩, _, outcome_bind_of_ok hset _⟩

/-- A statement that stops leaves the scopes, the data types and the printed lines as they were, by
`Machine.Grows`. -/
theorem failsWithin_stmt (depth : ℕ) (st : Stmt) :
    FailsWithin Machine.Grows (stmt depth s st) m := by
  rw [stmt.eq_def]
  refine FailsWithin.adapt ?_ _
  split
  next name value span =>
    refine .bind (Run.OnlyAdds.log _ m) fun u m₁ _ => ?_
    exact .bind (onlyAdds_evaluate depth s value m₁) fun v m₂ _ => failsWithin_update _
  next name nameSpan value span =>
    refine .bind (onlyAdds_evaluate depth s value m) fun v m₁ _ => ?_
    exact .bind (Run.OnlyAdds.log _ m₁) fun u m₂ _ => failsWithin_update _
  next => exact .of_leaves (Run.OnlyAdds.fail _ _ m)
  next value span =>
    -- printing comes last and does not fail
    refine .bind (onlyAdds_evaluate depth s value m) fun v m₁ _ => ?_
    refine .bind (Run.OnlyAdds.log _ m₁) fun u m₂ _ => ?_
    intro e m' h
    cases h
  next name constructors span => exact failsWithin_data name constructors span

end Execute

/-! ### Statements and expressions -/

/-- A statement that fails, in checking or in running, leaves everything as it was: the context with
its data types, and all scopes with their bindings in order, the data types and the printed lines.
Looking for the type or the value of an expression leaves them as they were whether there is one or
not.

For the type there is nothing to prove: `Context.infer` is given the context as a value and returns
no other one, so the third conjunct holds by the way inference is modeled, whatever it does. -/
theorem Stmt.fails_without_trace (s : Stmt) (e : Expr) :
    (∀ Γ error Γ', outcome (Check.stmt s) Γ = (.error error, Γ') → Γ' = Γ) ∧
    (∀ depth scope m stop m', outcome (Execute.stmt depth scope s) m = (.error stop, m') →
      m.Grows m') ∧
    (∀ Γ, (outcome (Check.withContext (·.infer e)) Γ).2 = Γ) ∧
    ∀ depth scope (m : Machine), m.Grows (outcome (evaluate depth scope e) m).2 := by
  refine ⟨fun Γ error Γ' h => ?_, fun depth scope m stop m' h => ?_, fun Γ => rfl, ?_⟩
  · exact (Check.failsWithin_stmt s error Γ' h).symm
  · exact Execute.failsWithin_stmt depth s stop m' h
  · exact fun depth scope m => onlyAdds_evaluate depth scope e m

/-- A data type whose third constructor repeats the first. -/
private def repeatedConstructor : Stmt :=
  .data "Tree" [⟨"Leaf", [], none⟩, ⟨"Node", [.data "Tree", .data "Tree"], none⟩,
    ⟨"Leaf", [.nat], none⟩] none

/-- Declaring a constructor twice in `repeatedConstructor` fails, and none of the constructors is
bound. -/
theorem Stmt.fails_without_trace_repeatedConstructor :
    (∃ error Γ', outcome (Check.stmt repeatedConstructor) (Session.start true).context =
      (.error error, Γ') ∧ Γ' = (Session.start true).context) ∧
    ∃ stop m', outcome (Execute.stmt 1 Machine.root repeatedConstructor)
      (Session.start true).machine = (.error stop, m') ∧ (Session.start true).machine.Grows m' := by
  obtain ⟨hcheck, hrun, -, -⟩ := Stmt.fails_without_trace repeatedConstructor (.number 0 none)
  refine ⟨?_, ?_⟩
  · have hfails : (outcome (Check.stmt repeatedConstructor) (Session.start true).context).1 =
        .error ⟨.redefinition "Leaf", none⟩ := by
      decide +kernel
    exact ⟨_, _, Prod.ext hfails rfl, hcheck _ _ _ (Prod.ext hfails rfl)⟩
  · have hstops : (outcome (Execute.stmt 1 Machine.root repeatedConstructor)
        (Session.start true).machine).1 = .error (.error ⟨.redefinition "Leaf", none⟩) := by
      decide +kernel
    exact ⟨_, _, Prod.ext hstops rfl, hrun _ _ _ _ _ (Prod.ext hstops rfl)⟩

end Casewise
