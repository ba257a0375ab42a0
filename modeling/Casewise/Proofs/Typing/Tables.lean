import Casewise.Proofs.Typing.Mentions
import Casewise.Session

/-!
# Three tables of constructors

What a text declares is kept in three places. Reading keeps the names of the data types and the
number of fields of each constructor, checking keeps a registry of data types, and it binds the
constructors as names. The three have rules of their own for names that come twice: reading lets a
later declaration win, the registry refuses a constructor that it knows, and the context refuses a
name that its level binds. In a program that checks no name comes twice in any of these ways, so the
three tables agree after every statement.

## Main definitions

* `ConstructorInfo.ty`: the type to which a constructor is bound.
* `TablesAgree`: the three tables say the same.

## Main statements

* `TablesAgree.stmt`: a statement that checks keeps the tables alike.
* `Program.tables_agree`: the tables agree after all statements of a program that checks.
-/

namespace Casewise

/-- The type to which a constructor is bound: its data type if it has no fields, and else a function
of its fields. -/
def ConstructorInfo.ty (info : ConstructorInfo) : Ty :=
  if info.fields = [] then .data info.data else .arrow info.fields (.data info.data)

/-- What reading has declared, what checking has declared and what it has bound say the same. -/
structure TablesAgree (d : Declared) (Γ : Context) : Prop where
  /-- The same data types are declared. -/
  mem_dataTypes : ∀ name, name ∈ d.dataTypes ↔ Γ.registry.Knows name
  /-- The same constructors are declared, with as many fields. -/
  get?_constructors : ∀ name,
    d.constructors.get? name = (Γ.registry.constructor? name).map ConstructorInfo.arity
  /-- A declared constructor is listed in its data type. -/
  listed : ∀ {name info}, Γ.registry.constructor? name = some info →
    ∃ infos, Γ.registry.data? info.data = some infos ∧ info ∈ infos
  /-- A declared constructor is bound to its type. -/
  bound : ∀ {name info}, Γ.registry.constructor? name = some info →
    Γ.here.get? name = some info.ty
  /-- The fields of constructors mention declared data types only. -/
  closed : Γ.registry.Closed

namespace TablesAgree

variable {d : Declared} {Γ Γ' : Context} {st : Stmt} {agree : Ty → Ty → Bool}

/-- At `Session.start` nothing is declared, and `TablesAgree`. -/
theorem start (builtins : Bool) : TablesAgree {} (Session.start builtins).context where
  mem_dataTypes _ := iff_of_false List.not_mem_nil nofun
  get?_constructors _ := rfl
  listed h := nomatch h
  bound h := nomatch h
  closed := .empty

/-- After a data declaration, what `constructor?` finds was declared with it, or is found as
before. -/
theorem constructor?_cases {R R' : Registry} {own : String} {cs : List ConstructorDecl}
    (h : outcome (Registry.declare own (cs.map fun c => (c.name, c.fields))) R = (.ok (), R'))
    (name : String) :
    (∃ c ∈ cs, name = c.name ∧ R'.constructor? name = some ⟨c.name, own, c.fields⟩) ∨
      name ∉ cs.map ConstructorDecl.name ∧ R'.constructor? name = R.constructor? name := by
  by_cases hname : name ∈ cs.map ConstructorDecl.name
  · obtain ⟨c, hc, rfl⟩ := List.mem_map.mp hname
    exact .inl ⟨c, hc, rfl, Registry.constructor?_of_declare_of_mem h (List.mem_map_of_mem hc)⟩
  · refine .inr ⟨hname, Registry.constructor?_of_declare_of_notMem h ?_⟩
    rwa [List.map_map]

/-- If reading and a registry know the same constructors, then they do so `after` a data
declaration. -/
theorem get?_after_data {R R' : Registry}
    (h : ∀ name, d.constructors.get? name = (R.constructor? name).map ConstructorInfo.arity)
    {own : String} {cs : List ConstructorDecl}
    (hdeclare : outcome (Registry.declare own (cs.map fun c => (c.name, c.fields))) R =
      (.ok (), R')) (span : Option Span)
    (name : String) : (d.after (.data own cs span)).constructors.get? name =
      (R'.constructor? name).map ConstructorInfo.arity := by
  rw [Declared.constructors_after]
  rcases constructor?_cases hdeclare name with ⟨c, hc, rfl, hnew⟩ | ⟨hname, hold⟩
  · rw [hnew]
    exact Table.get?_bindAll_of_mem (Registry.nodup_of_declare hdeclare) hc d.constructors
  · rw [hold]
    exact (Table.get?_bindAll_of_notMem hname d.constructors).trans (h name)

/-- A data declaration that checks keeps `TablesAgree`. -/
theorem data {own : String} {cs : List ConstructorDecl} {span : Option Span} (h : TablesAgree d Γ)
    (hread : (Stmt.data own cs span).Readable d)
    (hchecks : (Stmt.data own cs span).Checks agree Γ Γ') :
    TablesAgree (d.after (.data own cs span)) Γ' := by
  have hclosed := hchecks.closed hread h.closed
  cases hchecks with
  | @data _ _ _ R _ _ hdeclare =>
    have hown := (Registry.declare_eq_ok hdeclare).1
    have hnames := Registry.nodup_of_declare hdeclare
    have hdata := Registry.data?_of_declare hdeclare
    have hcases := constructor?_cases hdeclare
    exact
      { mem_dataTypes := fun name => by
          rw [Declared.mem_dataTypes_after, h.mem_dataTypes, Registry.knows_of_declare hdeclare,
            or_comm]
          refine or_congr_left ⟨?_, ?_⟩
          · rintro ⟨constructors, span', heq⟩
            cases heq
            rfl
          · rintro rfl
            exact ⟨cs, span, rfl⟩
        get?_constructors := get?_after_data h.get?_constructors hdeclare span
        listed := fun {name info} hinfo => by
          rcases hcases name with ⟨c, hc, rfl, hnew⟩ | ⟨hname, hold⟩
          · cases hinfo.symm.trans hnew
            refine ⟨_, (hdata own).trans (if_pos rfl), ?_⟩
            rw [List.map_map]
            exact List.mem_map_of_mem hc
          · obtain ⟨infos, hinfos, hmem⟩ := h.listed (hold.symm.trans hinfo)
            -- the data type was not declared before, so it is another one
            have hne : info.data ≠ own := fun heq => by
              rw [heq, hown] at hinfos
              cases hinfos
            exact ⟨infos, (hdata _).trans ((if_neg hne).trans hinfos), hmem⟩
        bound := fun {name info} hinfo => by
          rcases hcases name with ⟨c, hc, rfl, hnew⟩ | ⟨hname, hold⟩
          · cases hinfo.symm.trans hnew
            refine (Table.get?_bindAll_of_mem hnames hc Γ.here).trans ?_
            simp [Check.constructorTy, ConstructorInfo.ty]
          · exact (Table.get?_bindAll_of_notMem hname Γ.here).trans
              (h.bound (hold.symm.trans hinfo))
        closed := hclosed }

/-- A statement that checks keeps the tables alike: `TablesAgree` passes to `d.after st`. -/
theorem stmt (h : TablesAgree d Γ) (hread : st.Readable d) (hchecks : st.Checks agree Γ Γ') :
    TablesAgree (d.after st) Γ' := by
  cases st with
  | data own cs span => exact h.data hread hchecks
  | define name value span =>
    have hbound := fun {name ty} (hname : Γ.here.get? name = some ty) => hchecks.get?_eq_some hname
    cases hchecks with
    | define =>
      exact ⟨h.mem_dataTypes, h.get?_constructors, h.listed, fun hinfo => hbound (h.bound hinfo),
        h.closed⟩
  | assign target value span =>
    cases hchecks with
    | assign => exact h
  | print value span =>
    cases hchecks with
    | print => exact h

/-- The statements of a program that checks keep `TablesAgree`. -/
theorem program {p : Program} (h : TablesAgree d Γ) (hread : p.Readable d)
    (hchecks : p.Checks agree Γ Γ') : TablesAgree (p.foldl Declared.after d) Γ' := by
  induction hchecks generalizing d with
  | nil => exact h
  | cons hst _ ih => exact ih (h.stmt hread.1 hst) hread.2

end TablesAgree

namespace Program

/-- The first forms of a program are read as its first statements, by `take`. -/
theorem outcome_mapM_take {es : List Sexp} {d d' : Declared} {p : Program}
    (h : outcome (es.mapM Stmt.ofSexp) d = (.ok p, d')) (n : ℕ) :
    outcome ((es.take n).mapM Stmt.ofSexp) d =
      (.ok (p.take n), (p.take n).foldl Declared.after d) := by
  induction es generalizing d p n with
  | nil =>
    cases h
    simp
  | cons e es ih =>
    obtain ⟨st, d₁, q, hst, hq, rfl⟩ := outcome_mapM_cons_eq_ok.mp h
    cases n with
    | zero => rfl
    | succ n =>
      obtain ⟨-, rfl⟩ := Stmt.outcome_ofSexp_eq_ok.mp hst
      exact outcome_mapM_cons_eq_ok.mpr ⟨st, _, q.take n, hst, ih hq n, rfl⟩

/-- In a program that checks, after every number of its statements: reading has declared the data
types that checking has declared, and their constructors with as many fields; each constructor is
listed in its data type and is bound to its type (`Check.constructorTy`); and the fields of
constructors mention declared data types only. -/
theorem tables_agree {file source : String} {p : Program} (hparse : parse file source = .ok p)
    {builtins : Bool} (hchecks : ((Session.start builtins).check (Check.program p)).1 = .ok ())
    (n : ℕ) :
    ∃ es d Γ, Casewise.read file source = .ok es ∧
      outcome ((es.take n).mapM Stmt.ofSexp) {} = (.ok (p.take n), d) ∧
      outcome (Check.program (p.take n)) (Session.start builtins).context = (.ok (), Γ) ∧
      (∀ name, name ∈ d.dataTypes ↔ (Γ.registry.data? name).isSome = true) ∧
      (∀ name,
        d.constructors.get? name = (Γ.registry.constructor? name).map ConstructorInfo.arity) ∧
      ∀ name info, Γ.registry.constructor? name = some info →
        (∃ infos, Γ.registry.data? info.data = some infos ∧ info ∈ infos) ∧
        Γ.get? name = some info.ty ∧
        ∀ ty ∈ info.fields, ∀ owner ∈ ty.mentions, (Γ.registry.data? owner).isSome = true := by
  obtain ⟨es, d, hes, hp⟩ := parse_eq_ok.mp hparse
  have hread := readable_of_parse hparse
  have hsplit : p.take n ++ p.drop n = p := List.take_append_drop n p
  -- a program that checks has a context after each of its statements
  obtain ⟨Γ', hΓ'⟩ : ∃ Γ', p.Checks Ty.sameTag (Session.start builtins).context Γ' :=
    ⟨_, Check.forM_stmtWith_eq_ok.mp (Prod.ext hchecks rfl)⟩
  rw [← hsplit] at hΓ' hread
  obtain ⟨Γ, hfirst, -⟩ := hΓ'.append
  have hagree := (TablesAgree.start builtins).program (readable_append.mp hread).1 hfirst
  refine ⟨es, _, Γ, hes, outcome_mapM_take hp n,
    Check.forM_stmtWith_eq_ok.mpr hfirst, hagree.mem_dataTypes, hagree.get?_constructors, ?_⟩
  intro name info hinfo
  refine ⟨hagree.listed hinfo, ?_, hagree.closed.within hinfo⟩
  rw [Chain.get?, Chain.levels, List.findSome?_cons, hagree.bound hinfo]

/-- A program that declares a data type whose fields mention the data type itself, and uses it. -/
private def naturalList : String :=
  "(data List (Nil) (Cons Nat List)) (print (Cons 1 (Nil)))"

/-- After the declaration in `naturalList`, reading knows two fields of `Cons`, and the context
binds it to a function of these. -/
theorem tables_agree_naturalList : ∃ p es d Γ, parse "list" naturalList = .ok p ∧
    outcome ((List.take 1 es).mapM Stmt.ofSexp) {} = (.ok (p.take 1), d) ∧
    outcome (Check.program (p.take 1)) (Session.start true).context = (.ok (), Γ) ∧
    d.constructors.get? "Cons" = some 2 ∧
    Γ.get? "Cons" = some (.arrow [.nat, .data "List"] (.data "List")) := by
  have hholds : (parse "list" naturalList).toOption.map (fun p =>
      (((Session.start true).check (Check.program p)).1.toOption.map id,
        (outcome (Check.program (p.take 1))
          (Session.start true).context).2.registry.constructor? "Cons")) =
      some (some (), some ⟨"Cons", "List", [.nat, .data "List"]⟩) := by
    decide +kernel
  obtain ⟨p, hparse, hp⟩ := exists_ok_of_map_toOption hholds
  obtain ⟨hok, hinfo⟩ := Prod.mk.inj hp
  obtain ⟨u, hchecks, -⟩ := exists_ok_of_map_toOption hok
  obtain ⟨es, d, Γ, -, hfirst, hcheck, -, harity, hbound⟩ := tables_agree hparse hchecks 1
  rw [hcheck] at hinfo
  refine ⟨p, es, d, Γ, hparse, hfirst, hcheck, ?_, (hbound "Cons" _ hinfo).2.1⟩
  rw [harity, hinfo]
  rfl

end Program

end Casewise
