import Casewise.Proofs.Running.Failing

/-!
# What statements add to the root

A statement that comes to its end has bound the names that it declares at the root, behind the names
that were there, and has declared its data type if it has one. Nothing else happens to the names and
the data types of the root. In this, checking and executing are alike, although they write tables of
their own and test for names in their own ways.

A data declaration stops only if one of its names is taken. So it cannot stop where the same names
are new for the checker.

## Main definitions

* `Stmt.declare`: what a statement declares.
* `Stmt.Adds`: the names and the data types before and after a statement.

## Main statements

* `Stmt.Checks.adds`, `Execute.adds_of_ok`: what checking and executing add to the root.
* `Execute.exists_outcome_data`: a data declaration with new names comes to its end.
-/

namespace Casewise

/-- Declares the data type of a statement, if it has one. -/
def Stmt.declare : Stmt → Declaring Unit
  | .data name constructors _ =>
    Registry.declare name (constructors.map fun c => (c.name, c.fields))
  | _ => pure ()

/-- The statement takes the names and the data types of the root from before to after. -/
structure Stmt.Adds (st : Stmt) (names names' : List String) (R R' : Registry) : Prop where
  /-- The names that the statement binds come last. -/
  names_eq : names' = names ++ st.binds
  /-- A data type that the statement declares is known. -/
  declare_eq : outcome st.declare R = (.ok (), R')

/-! ### Checking -/

/-- New constructors that differ come last after `bindAll`. -/
theorem Table.names_bindAll_of_new {α : Type} {t : Table α} {f : ConstructorDecl → α}
    {cs : List ConstructorDecl} (hnew : ∀ c ∈ cs, t.get? c.name = none)
    (hnodup : (cs.map ConstructorDecl.name).Nodup) :
    (t.bindAll f cs).names = t.names ++ cs.map ConstructorDecl.name := by
  induction cs generalizing t with
  | nil => exact (List.append_nil _).symm
  | cons c cs ih =>
    obtain ⟨hc, hcs⟩ := List.forall_mem_cons.mp hnew
    obtain ⟨hmem, hnodup⟩ := List.nodup_cons.mp hnodup
    have hrest : ∀ c' ∈ cs, (t.insert c.name (f c)).get? c'.name = none := by
      intro c' hc'
      have hne : c'.name ≠ c.name := fun h => hmem (h ▸ List.mem_map_of_mem hc')
      rw [get?_insert_of_ne hne]
      exact hcs c' hc'
    refine (ih hrest hnodup).trans ?_
    rw [names_insert_of_notMem (get?_eq_none_iff.mp hc), List.map_cons, List.append_assoc]
    rfl

/-- A statement that checks adds to the names and the data types of the context by `Stmt.Adds`. -/
theorem Stmt.Checks.adds {agree : Ty → Ty → Bool} {Γ Γ' : Context} {st : Stmt}
    (h : st.Checks agree Γ Γ') : st.Adds Γ.here.names Γ'.here.names Γ.registry Γ'.registry := by
  cases h with
  | define _ hname =>
    exact ⟨Table.names_insert_of_notMem (Table.get?_eq_none_iff.mp hname) _, rfl⟩
  | assign => exact ⟨(List.append_nil _).symm, rfl⟩
  | print => exact ⟨(List.append_nil _).symm, rfl⟩
  | data hnew _ hdeclare =>
    exact ⟨Table.names_bindAll_of_new hnew (Registry.nodup_of_declare hdeclare), hdeclare⟩

/-! ### Executing -/

namespace Execute

variable {m m' : Machine} {u : Unit}

theorem grows_of_evaluate {depth : ℕ} {s : ScopeId} {e : Expr} {r : Except Stop Value}
    (h : outcome (evaluate depth s e) m = (r, m')) : m.Grows m' := by
  have hgrows := onlyAdds_evaluate depth s e m
  rwa [h] at hgrows

/-- `set` of a new name of a scope binds it there behind the others, and the data types stay. -/
theorem bindings_of_set {s : ScopeId} {name : String} {v : Value}
    (hs : s < m.scopes.scopes.size) (h : outcome (Run.update (·.set s name v)) m = (.ok u, m')) :
    m'.scopes.bindings s = (m.scopes.bindings s).insert name v ∧
      (m.scopes.bindings s).get? name = none ∧
      m'.scopes.registry s = m.scopes.registry s ∧ s < m'.scopes.scopes.size := by
  obtain ⟨scopes, hset, rfl⟩ := eq_of_outcome_update h
  rw [Forest.set] at hset
  split at hset
  · cases hset
  · next hnew =>
    cases hset
    refine ⟨?_, Table.contains_eq_false.mp (Bool.eq_false_iff.mpr hnew),
      Forest.registry_write m.scopes s s name v, ?_⟩
    · change (m.scopes.write s name v).bindings s = _
      rw [Forest.bindings_write m.scopes s s name v hs, if_pos rfl]
    · change s < (m.scopes.write s name v).scopes.size
      rwa [Forest.size_write]

/-- `update` at the root keeps the names. -/
theorem root_of_update {name : String} {v : Value} (hpos : 0 < m.scopes.scopes.size)
    (hpath : m.scopes.path 0 = [0])
    (h : outcome (Run.update (·.update 0 name v)) m = (.ok u, m')) :
    (m'.scopes.bindings 0).names = (m.scopes.bindings 0).names ∧
      m'.scopes.registry 0 = m.scopes.registry 0 := by
  obtain ⟨scopes, hupdate, rfl⟩ := eq_of_outcome_update h
  rw [Forest.update] at hupdate
  split at hupdate
  · next owner howner =>
    cases hupdate
    -- nothing stands around the root, so the root itself binds the name
    rw [Forest.owner?, hpath] at howner
    have hbound := List.find?_some howner
    obtain rfl := List.mem_singleton.mp (List.mem_of_find?_eq_some howner)
    refine ⟨?_, Forest.registry_write m.scopes 0 0 name v⟩
    change ((m.scopes.write 0 name v).bindings 0).names = _
    rw [Forest.bindings_write m.scopes 0 0 name v hpos, if_pos rfl,
      Table.names_insert_of_mem (Table.contains_iff.mp hbound)]
  · cases hupdate

/-- The value that the name of a constructor is bound to. -/
def constructorValue (c : ConstructorDecl) : Value :=
  .constructor c.name c.fields.length

/-- Constructors that have been `set` one after the other come last. -/
theorem bindings_of_forM_set {s : ScopeId} {cs : List ConstructorDecl}
    (hs : s < m.scopes.scopes.size)
    (h : outcome (cs.forM fun c => Run.update (·.set s c.name (constructorValue c))) m =
      (.ok u, m')) :
    m'.scopes.bindings s = (m.scopes.bindings s).bindAll constructorValue cs ∧
      (m'.scopes.bindings s).names =
        (m.scopes.bindings s).names ++ cs.map ConstructorDecl.name ∧
      m'.scopes.registry s = m.scopes.registry s := by
  induction cs generalizing m with
  | nil =>
    cases h
    exact ⟨rfl, (List.append_nil _).symm, rfl⟩
  | cons c cs ih =>
    obtain ⟨u', m₁, hc, hcs⟩ := outcome_bind_eq_ok.mp h
    obtain ⟨hbindings, hnew, hregistry, hs₁⟩ := bindings_of_set hs hc
    obtain ⟨hbindings', hnames', hregistry'⟩ := ih hs₁ hcs
    rw [hbindings] at hbindings' hnames'
    refine ⟨hbindings', ?_, hregistry'.trans hregistry⟩
    rw [hnames', Table.names_insert_of_notMem (Table.get?_eq_none_iff.mp hnew), List.append_assoc]
    rfl

/-- `Execute.data` that comes to its end has declared its data type in the registry of its scope and
bound its constructors there, behind the names that were there. -/
theorem bindings_of_data {s : ScopeId} {name : String} {constructors : List ConstructorDecl}
    {span : Option Span} (hs : m.scopes.Live s)
    (h : outcome (data s name constructors span) m = (.ok u, m')) :
    m'.scopes.bindings s = (m.scopes.bindings s).bindAll constructorValue constructors ∧
      (m'.scopes.bindings s).names =
        (m.scopes.bindings s).names ++ constructors.map ConstructorDecl.name ∧
      outcome (Registry.declare name (constructors.map fun c => (c.name, c.fields)))
        (m.scopes.registry s) = (.ok (), m'.scopes.registry s) := by
  obtain ⟨r, m₁, hr, h⟩ := outcome_bind_eq_ok.mp h
  cases hr
  obtain ⟨u₁, m₁, hchecked, h⟩ := outcome_bind_eq_ok.mp h
  obtain ⟨-, rfl⟩ := Prod.mk.inj hchecked
  obtain ⟨u₂, m₂, hdeclared, h⟩ := outcome_bind_eq_ok.mp h
  obtain ⟨u₃, m₃, hset, hlog⟩ := outcome_bind_eq_ok.mp h
  cases hlog
  obtain ⟨scopes, hdeclare, rfl⟩ := Run.outcome_declare_eq_ok.mp hdeclared
  obtain ⟨hscopes, hR⟩ := hs.of_declare hdeclare
  have hkept : scopes.bindings s = m.scopes.bindings s := by
    rw [Forest.bindings, Forest.bindings, hscopes]
  have hlt : s < scopes.scopes.size := by
    rw [hscopes]
    exact hs.lt_size
  obtain ⟨hbindings, hnames, hregistry⟩ :=
    bindings_of_forM_set (m := { m with scopes }) hlt hset
  refine ⟨hbindings.trans ?_, hnames.trans ?_, ?_⟩
  · exact congrArg (Table.bindAll · constructorValue constructors) hkept
  · exact congrArg (·.names ++ constructors.map ConstructorDecl.name) hkept
  · rw [hR]
    exact congrArg (Prod.mk _) hregistry.symm

/-- However it ends, `Execute.data` at the root leaves the scopes in one tree. -/
theorem rooted_data (hm : m.scopes.Rooted) (name : String) (constructors : List ConstructorDecl)
    (span : Option Span) : (outcome (data 0 name constructors span) m).2.scopes.Rooted := by
  -- every part keeps the tree, wherever the declaration stops
  let step (m m' : Machine) : Prop := m.scopes.Rooted → m'.scopes.Rooted
  have hlog : ∀ event, (Run.log event).Takes step := fun event m => .single id
  have hdeclare : (Run.declare 0 name
      (constructors.map fun c => (c.name, c.fields))).Takes step := by
    refine .declare fun m r scopes hscopes hm => ?_
    obtain ⟨R, -, rfl⟩ := hm.outcome_declare_eq.mp hscopes
    exact hm.withRegistry R
  have hset : ∀ c : ConstructorDecl,
      (Run.update (·.set 0 c.name (constructorValue c))).Takes step := by
    refine fun c => .update fun m scopes hscopes hm => ?_
    rw [Forest.set] at hscopes
    split at hscopes
    · cases hscopes
    · cases hscopes
      exact hm.write 0 c.name _
  have hdata : (data 0 name constructors span).Takes step := by
    refine .bind (.withScopes _) fun r => .bind (.ofExcept r) fun _ => ?_
    exact .bind hdeclare fun _ => .bind (.forM hset constructors) fun _ => hlog _
  exact hdata.preserves (·.scopes.Rooted) (fun _ _ hstep => hstep) hm

/-- `Execute.data` comes to its end if the names of its constructors are new at the root and its
data type can be declared. -/
theorem exists_outcome_data {name : String} {constructors : List ConstructorDecl}
    {span : Option Span} {R : Registry} (hm : m.scopes.Rooted)
    (hnew : ∀ c ∈ constructors, m.scopes.hasLocal 0 c.name = false)
    (hdeclare : outcome (Registry.declare name
      (constructors.map fun c => (c.name, c.fields))) (m.scopes.registry 0) = (.ok (), R)) :
    ∃ m', outcome (data 0 name constructors span) m = (.ok ⟨⟩, m') := by
  have hundeclared : undeclared 0 name constructors span m.scopes = .ok () := by
    rw [undeclared, (Registry.declare_eq_ok hdeclare).1, Option.isSome_none,
      if_neg Bool.false_ne_true]
    refine forM_eq_ok.mpr fun c hc => ?_
    rw [hnew c hc, if_neg Bool.false_ne_true]
  have hscopes := hm.outcome_declare_eq.mpr ⟨R, hdeclare, rfl⟩
  have hdeclared := Run.outcome_declare_eq_ok.mpr ⟨_, hscopes, rfl⟩
  obtain ⟨m', hset⟩ := exists_outcome_forM_set (s := 0)
    (m := { m with scopes := m.scopes.withRegistry R }) hnew (Registry.nodup_of_declare hdeclare)
  have hlooked : outcome (Run.withScopes (undeclared 0 name constructors span)) m =
      (.ok (undeclared 0 name constructors span m.scopes), m) := rfl
  have hpassed : outcome (Run.ofExcept (.ok ())) m = (.ok (), m) := rfl
  rw [hundeclared] at hlooked
  refine ⟨m'.log (.data name (constructors.map ConstructorDecl.name)), ?_⟩
  rw [data, outcome_bind_of_ok hlooked, outcome_bind_of_ok hpassed,
    outcome_bind_of_ok hdeclared, outcome_bind_of_ok hset]
  rfl

/-- A statement that comes to its end adds to the names and the data types of the root by
`Stmt.Adds`, as it does to those of a context that checks it. -/
theorem adds_of_ok {depth : ℕ} {st : Stmt} (hm : m.scopes.Rooted)
    (h : outcome (stmt depth 0 st) m = (.ok u, m')) :
    st.Adds (m.scopes.bindings 0).names (m'.scopes.bindings 0).names (m.scopes.registry 0)
      (m'.scopes.registry 0) := by
  rw [stmt.eq_def, Run.located, outcome_adapt_eq_ok] at h
  have hpos := hm.size_pos
  split at h
  next name value span =>
    obtain ⟨u₁, m₁, hlog, h⟩ := outcome_bind_eq_ok.mp h
    cases hlog
    obtain ⟨v, m₂, hvalue, hset⟩ := outcome_bind_eq_ok.mp h
    have hgrows : m.Grows m₂ := (Run.OnlyAdds.log _ m).trans (grows_of_evaluate hvalue)
    obtain ⟨hbindings, hnew, hregistry, -⟩ := bindings_of_set (hgrows.lt_size hpos) hset
    rw [hgrows.bindings_eq hpos] at hbindings hnew
    rw [hgrows.registry_eq hpos] at hregistry
    refine ⟨?_, congrArg (Prod.mk _) hregistry.symm⟩
    rw [hbindings]
    exact Table.names_insert_of_notMem (Table.get?_eq_none_iff.mp hnew) v
  next name nameSpan value span =>
    obtain ⟨v, m₁, hvalue, h⟩ := outcome_bind_eq_ok.mp h
    obtain ⟨u₁, m₂, hlog, hupdate⟩ := outcome_bind_eq_ok.mp h
    cases hlog
    have hgrows : m.Grows (m₁.log (.assign name)) :=
      (grows_of_evaluate hvalue).trans (Run.OnlyAdds.log _ m₁)
    have hpath := (hgrows.path_eq hpos).trans hm.path_root
    obtain ⟨hnames, hregistry⟩ := root_of_update (hgrows.lt_size hpos) hpath hupdate
    rw [hgrows.bindings_eq hpos] at hnames
    rw [hgrows.registry_eq hpos] at hregistry
    exact ⟨hnames.trans (List.append_nil _).symm, congrArg (Prod.mk _) hregistry.symm⟩
  next => cases h
  next value span =>
    obtain ⟨v, m₁, hvalue, h⟩ := outcome_bind_eq_ok.mp h
    have hgrows := grows_of_evaluate hvalue
    cases h
    have hnames : (m₁.scopes.bindings 0).names = (m.scopes.bindings 0).names := by
      rw [hgrows.bindings_eq hpos]
    exact ⟨hnames.trans (List.append_nil _).symm,
      congrArg (Prod.mk _) (hgrows.registry_eq hpos).symm⟩
  next name constructors span =>
    obtain ⟨-, hnames, hdeclare⟩ := bindings_of_data (.of_rooted hm hpos) h
    exact ⟨hnames, hdeclare⟩

end Execute

end Casewise
