import Casewise.Proofs.Command.Turns
import Casewise.Proofs.Running.Reached
import Casewise.Proofs.Running.Root

/-!
# How far checking and executing drift apart

A run that keeps going checks a statement and then executes it. Each of the two may fail, and each
writes names and data types of its own: checking those of the context, executing those of the root
of the machine. A statement that is rejected changes neither. A statement that is executed to its
end changes both alike. What remains are definitions that check and then stop: their names are bound
in the context and not at the root. They are never bound there later, since the checker rejects
every further definition of them. This is the whole difference. Data types do not drift apart,
because a declaration that checks finds its names new at the root as well.

## Main definitions

* `Turn.lost`, `Turn.allLost`: the names of definitions that check and then stop.
* `Session.Drifted`: how the context and the root differ.

## Main statements

* `Session.Drifted.exists_outcome_data`: a data declaration that checks is executed to its end.
* `Session.Drifted.turn`, `Session.Drifted.turns`: what a turn and what the turns of a program do.
* `Program.drifts_by_lost_names`: the difference after each statement of a program.
-/

namespace Casewise

/-! ### Lost names -/

namespace Turn

/-- The name of a definition that checks and then stops in the turn. -/
def lost : Stmt → Turn → List String
  | .define name _ _, executed (.error _) _ => [name]
  | _, _ => []

/-- The names that are lost in the turns of a program. -/
def allLost (p : Program) (turns : List Turn) : List String :=
  (p.zip turns).flatMap fun (st, turn) => lost st turn

theorem lost_rejected (st : Stmt) (e : LangError) : lost st (.rejected e) = [] := by
  cases st <;> rfl

theorem lost_executed_ok (st : Stmt) (u : Unit) (lines : List String) :
    lost st (.executed (.ok u) lines) = [] := by
  cases st <;> rfl

/-- What a statement without a data type `binds` is lost in a turn in which it stops. -/
theorem lost_executed_error {st : Stmt} (h : ∀ name constructors span,
    st ≠ .data name constructors span) (stop : Stop) (lines : List String) :
    lost st (.executed (.error stop) lines) = st.binds := by
  cases st with
  | data name constructors span => exact absurd rfl (h name constructors span)
  | _ => rfl

end Turn

/-! ### The difference -/

/-- The context and the root of the session know the same data types, and bind the same names up to
those that are lost, which only the context binds. -/
structure Session.Drifted (σ : Session) (lost : List String) : Prop where
  /-- Programs have led to the machine. -/
  reached : σ.machine.Reached
  /-- Statements are executed at the root. -/
  scope_eq : σ.scope = Machine.root
  /-- The context has a single level. -/
  outer_eq : σ.context.outer = []
  /-- The data types are the same. -/
  registry_eq : σ.machine.scopes.registry Machine.root = σ.context.registry
  /-- The root binds the names that are not lost. -/
  names_eq : (σ.machine.scopes.bindings Machine.root).names =
    σ.context.here.names.filter (· ∉ lost)
  /-- The context binds the names that are lost. -/
  subset : lost ⊆ σ.context.here.names

namespace Session.Drifted

variable {σ : Session} {lost : List String} {st : Stmt} {Γ : Context}

theorem start (builtins recording : Bool) : (Session.start builtins recording).Drifted [] where
  reached := .initial builtins recording
  scope_eq := rfl
  outer_eq := rfl
  registry_eq := by cases builtins <;> rfl
  names_eq := by
    have halike : Table.Alike (fun _ _ => True) (if builtins then Builtin.types else ∅)
        (if builtins then Builtin.values else ∅) :=
      Builtin.alike_start (fun _ => trivial) builtins
    refine halike.names_eq.symm.trans ?_
    exact (List.filter_eq_self.mpr fun name _ => by simp).symm
  subset := List.nil_subset _

/-- New names that are bound on both sides are not `lost`. -/
theorem filter_append_of_bound {names new : List String} (hnodup : (names ++ new).Nodup)
    (hlost : lost ⊆ names) :
    (names ++ new).filter (· ∉ lost) = names.filter (· ∉ lost) ++ new := by
  have hnew : new.filter (· ∉ lost) = new := by
    refine List.filter_eq_self.mpr fun name hname => decide_eq_true fun hmem => ?_
    exact List.disjoint_of_nodup_append hnodup (hlost hmem) hname
  rw [List.filter_append, hnew]

/-- New names that only one side binds are `lost`. -/
theorem filter_append_of_lost {names new : List String} (hnodup : (names ++ new).Nodup) :
    (names ++ new).filter (· ∉ lost ++ new) = names.filter (· ∉ lost) := by
  have hnew : new.filter (· ∉ lost ++ new) = [] := by
    refine List.filter_eq_nil_iff.mpr fun name hname => ?_
    simp [hname]
  rw [List.filter_append, hnew, List.append_nil]
  refine List.filter_congr fun name hname => ?_
  have hold : name ∉ new := List.disjoint_of_nodup_append hnodup hname
  simp [hold]

/-- In a session that has `Drifted`, a data declaration that checks is executed to its end. -/
theorem exists_outcome_data (h : σ.Drifted lost) {agree : Ty → Ty → Bool} {name : String}
    {constructors : List ConstructorDecl} {span : Option Span}
    (hchecks : (Stmt.data name constructors span).Checks agree σ.context Γ) (depth : ℕ) :
    ∃ m, outcome (Execute.stmt depth Machine.root (.data name constructors span)) σ.machine =
      (.ok (), m) := by
  cases hchecks with
  | data hnew _ hdeclare =>
    have hlocal : ∀ c ∈ constructors, σ.machine.scopes.hasLocal Machine.root c.name = false := by
      intro c hc
      rw [Forest.hasLocal, Table.contains_eq_false, Table.get?_eq_none_iff, h.names_eq]
      intro hmem
      exact Table.get?_eq_none_iff.mp (hnew c hc) (List.mem_filter.mp hmem).1
    rw [← h.registry_eq] at hdeclare
    obtain ⟨m, hm⟩ :=
      Execute.exists_outcome_data h.reached.valid.rooted hlocal hdeclare
    exact ⟨m, outcome_adapt_eq_ok.mpr hm⟩

/-- A statement that checks and stops binds its names in the context only, so they are lost:
the session is `Drifted` by more lost names. -/
theorem of_stop (h : σ.Drifted lost) {agree : Ty → Ty → Bool}
    (hchecks : st.Checks agree σ.context Γ) {m : Machine} (hreached : m.Reached)
    (hgrows : σ.machine.Grows m) (hdata : ∀ name constructors span,
      st ≠ .data name constructors span) :
    ({ σ with context := Γ, machine := m } : Session).Drifted (lost ++ st.binds) where
  reached := hreached
  scope_eq := h.scope_eq
  outer_eq := hchecks.outer_eq.trans h.outer_eq
  registry_eq := by
    have hsame : outcome st.declare σ.context.registry = (.ok (), σ.context.registry) := by
      cases st with
      | data name constructors span => exact absurd rfl (hdata name constructors span)
      | _ => rfl
    have hΓ := congrArg Prod.snd (hsame.symm.trans hchecks.adds.declare_eq)
    exact (hgrows.registry_eq h.reached.valid.rooted.size_pos).trans (h.registry_eq.trans hΓ)
  names_eq := by
    have hnames := hchecks.adds.names_eq
    have hnodup : (σ.context.here.names ++ st.binds).Nodup := hnames ▸ Γ.here.nodup
    have hkept := hgrows.bindings_eq h.reached.valid.rooted.size_pos
    calc (m.scopes.bindings Machine.root).names
        = σ.context.here.names.filter (· ∉ lost) := (congrArg Table.names hkept).trans h.names_eq
      _ = (σ.context.here.names ++ st.binds).filter (· ∉ lost ++ st.binds) :=
          (filter_append_of_lost hnodup).symm
      _ = Γ.here.names.filter (· ∉ lost ++ st.binds) := by rw [hnames]
  subset := by
    rw [hchecks.adds.names_eq]
    exact List.append_subset.mpr ⟨List.subset_append_of_subset_left _ h.subset,
      List.subset_append_right _ _⟩

/-- A statement that checks and comes to its end binds its names on both sides: the session is
`Drifted` by the same names. -/
theorem of_ok (h : σ.Drifted lost) {agree : Ty → Ty → Bool}
    (hchecks : st.Checks agree σ.context Γ) {m : Machine} (hreached : m.Reached)
    (hadds : st.Adds (σ.machine.scopes.bindings Machine.root).names
      (m.scopes.bindings Machine.root).names (σ.machine.scopes.registry Machine.root)
      (m.scopes.registry Machine.root)) :
    ({ σ with context := Γ, machine := m } : Session).Drifted lost where
  reached := hreached
  scope_eq := h.scope_eq
  outer_eq := hchecks.outer_eq.trans h.outer_eq
  registry_eq := by
    have hdeclare := hadds.declare_eq
    rw [h.registry_eq] at hdeclare
    exact congrArg Prod.snd (hdeclare.symm.trans hchecks.adds.declare_eq)
  names_eq := by
    have hnames := hchecks.adds.names_eq
    have hnodup : (σ.context.here.names ++ st.binds).Nodup := hnames ▸ Γ.here.nodup
    calc (m.scopes.bindings Machine.root).names
        = σ.context.here.names.filter (· ∉ lost) ++ st.binds := by rw [hadds.names_eq, h.names_eq]
      _ = (σ.context.here.names ++ st.binds).filter (· ∉ lost) :=
          (filter_append_of_bound hnodup h.subset).symm
      _ = Γ.here.names.filter (· ∉ lost) := by rw [hnames]
  subset := by
    rw [hchecks.adds.names_eq]
    exact List.subset_append_of_subset_left _ h.subset

/-- What a `Session.turn` adds to the names that are lost. -/
theorem turn (h : σ.Drifted lost) (hst : st.IsRead) (depth : ℕ) :
    (σ.turn depth true st).2.Drifted (lost ++ Turn.lost st (σ.turn depth true st).1) := by
  rcases hcheck : outcome (Check.stmt st) σ.context with ⟨e | u, Γ⟩
  · -- nothing changes
    rw [Session.turn_of_check_error (Session.check_eq hcheck), Turn.lost_rejected, List.append_nil]
    obtain rfl := Check.failsWithin_stmt st e Γ hcheck
    exact h
  have hchecks := Check.stmtWith_eq_ok.mp hcheck
  have hreached := h.reached.stmt hst depth
  rcases hrun : outcome (Execute.stmt depth Machine.root st) σ.machine with ⟨r, m⟩
  rw [hrun] at hreached
  rw [Session.turn_of_outcomes hcheck (h.scope_eq ▸ hrun)]
  cases r with
  | error stop =>
    have hdata : ∀ name constructors span, st ≠ .data name constructors span := by
      rintro name constructors span rfl
      obtain ⟨m', hok⟩ := h.exists_outcome_data hchecks depth
      cases hok.symm.trans hrun
    rw [Turn.lost_executed_error hdata]
    exact h.of_stop hchecks hreached (Execute.failsWithin_stmt depth st stop m hrun) hdata
  | ok u' =>
    rw [Turn.lost_executed_ok, List.append_nil]
    exact h.of_ok hchecks hreached (Execute.adds_of_ok h.reached.valid.rooted hrun)

/-- What the `Session.turns` of a program add to the names that are lost. -/
theorem turns (h : σ.Drifted lost) {p : Program} (hp : ∀ st ∈ p, st.IsRead) (depth : ℕ) :
    (σ.turns depth true p).2.Drifted (lost ++ Turn.allLost p (σ.turns depth true p).1) := by
  induction p generalizing σ lost with
  | nil => simpa [Session.turns, Turn.allLost] using h
  | cons st p ih =>
    obtain ⟨hst, hp⟩ := List.forall_mem_cons.mp hp
    have hrest := ih (h.turn hst depth) hp
    rw [List.append_assoc] at hrest
    exact hrest

end Session.Drifted

/-! ### Programs -/

/-- The program is run from the start by `Session.turns`, which checks each statement before it
executes it and goes on after errors. After its first part `before`, the context and the root of the
machine still know the same data types with the same constructors. The root binds the names of the
single level of the context in the same order, apart from those of `Turn.allLost`, and these are
never bound there later. A data declaration that checks does not stop. -/
theorem Program.drifts_by_lost_names {file source : String} {before after : Program}
    (hparse : parse file source = .ok (before ++ after)) (builtins recording : Bool) (depth : ℕ) :
    let start := Session.start builtins recording
    let lost := Turn.allLost before (start.turns depth true before).1
    let σ := (start.turns depth true before).2
    σ.machine.scopes.registry Machine.root = σ.context.registry ∧
    σ.context.outer = [] ∧
    (σ.machine.scopes.bindings Machine.root).names = σ.context.here.names.filter (· ∉ lost) ∧
    (∀ more rest, after = more ++ rest → ∀ name ∈ lost,
      name ∉ ((start.turns depth true (before ++ more)).2.machine.scopes.bindings
        Machine.root).names) ∧
    ∀ name constructors span rest, after = .data name constructors span :: rest → ∀ stop lines,
      (σ.turn depth true (.data name constructors span)).1 ≠ .executed (.error stop) lines := by
  intro start lost σ
  have hread : ∀ st ∈ before ++ after, st.IsRead := by
    obtain ⟨es, d, hes, hp⟩ := parse_eq_ok.mp hparse
    exact fun st hst =>
      ⟨file, source, {}, _, d, Program.outcome_read_eq_ok.mpr ⟨es, hes, hp⟩, hst⟩
  obtain ⟨hbefore, hafter⟩ := List.forall_mem_append.mp hread
  have hdrifted : σ.Drifted lost :=
    (Session.Drifted.start builtins recording).turns hbefore depth
  refine ⟨hdrifted.registry_eq, hdrifted.outer_eq, hdrifted.names_eq, ?_, ?_⟩
  · rintro more rest rfl name hname hbound
    have hmore := hdrifted.turns (List.forall_mem_append.mp hafter).1 depth
    rw [Session.turns_append, hmore.names_eq] at hbound
    -- what is lost stays lost
    have hkept := of_decide_eq_true (List.mem_filter.mp hbound).2
    exact hkept (List.mem_append_left _ hname)
  · rintro name constructors span rest rfl stop lines hstop
    rcases hcheck : outcome (Check.stmt (.data name constructors span)) σ.context with ⟨e | u, Γ⟩
    · rw [Session.turn_of_check_error (Session.check_eq hcheck)] at hstop
      cases hstop
    · obtain ⟨m, hok⟩ := hdrifted.exists_outcome_data (Check.stmtWith_eq_ok.mp hcheck) depth
      rw [Session.turn_of_outcomes hcheck (hdrifted.scope_eq ▸ hok)] at hstop
      cases hstop

/-- A program in which a definition is lost, because no pattern fits, and is then repeated. -/
private def lostDefinition : String :=
  "(define x (match 1 (2 3))) (define x 4) (data Box (Box Nat)) (define y (Box x))"

/-- In `lostDefinition`, `x` and `y` are lost: they are bound in the context only, and `Box` is
bound on both sides. -/
theorem Program.drifts_by_lost_names_lostDefinition : ∃ p, parse "lost" lostDefinition = .ok p ∧
    ((Session.start false).turns 9 true p).2.context.here.names = ["x", "Box", "y"] ∧
    (((Session.start false).turns 9 true p).2.machine.scopes.bindings Machine.root).names =
      ["Box"] := by
  have hlost : (parse "lost" lostDefinition).toOption.map (fun p =>
      (Turn.allLost p ((Session.start false).turns 9 true p).1,
        ((Session.start false).turns 9 true p).2.context.here.names)) =
      some (["x", "y"], ["x", "Box", "y"]) := by
    decide +kernel
  obtain ⟨p, hparse, hp⟩ := exists_ok_of_map_toOption hlost
  obtain ⟨hlost, hnames⟩ := Prod.mk.inj hp
  have hparsed : parse "lost" lostDefinition = .ok (p ++ []) := by rw [hparse, List.append_nil]
  obtain ⟨-, -, hroot, -⟩ := drifts_by_lost_names hparsed false false 9
  refine ⟨p, hparse, hnames, ?_⟩
  rw [hroot, hlost, hnames]
  decide

end Casewise
