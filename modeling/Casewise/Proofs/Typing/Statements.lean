import Casewise.Proofs.Reading.Statements
import Casewise.Proofs.Typing.Rules
import Casewise.Typing.Check

/-!
# What checking a program does

A statement that checks has made one of four changes to the context, and `Stmt.Checks` tells which.
Checking only adds: names keep their types, and no name that is bound already becomes a constructor.
Checking with fewer types accepted for the branches of a choice succeeds less often, but when it
does it makes the same changes.

## Main definitions

* `Stmt.Checks`, `Program.Checks`: the context before and after.

## Main statements

* `Check.stmtWith_eq_ok`, `Check.forM_stmtWith_eq_ok`: `Stmt.Checks` and `Program.Checks` say what
  checking does.
* `Program.Checks.mono`: checking by another rule for branches.
* `Stmt.Checks.get?_eq_some`, `Stmt.Checks.isNullary_after`: what checking leaves alone.
-/

namespace Casewise

/-! ### The steps of checking -/

section Steps

variable {α : Type} {Γ Γ' : Context}

theorem outcome_adapt_eq_ok {ε ε' σ : Type} {f : ε → ε'} {x : ExceptT ε (StateM σ) α} {a : α}
    {s s' : σ} : outcome (ExceptT.adapt f x) s = (.ok a, s') ↔ outcome x s = (.ok a, s') := by
  rw [outcome_adapt, Prod.mk.injEq, mapError_eq_ok, Prod.ext_iff]

theorem outcome_withContext_eq_ok {f : Context → Except LangError α} {a : α} :
    outcome (Check.withContext f) Γ = (.ok a, Γ') ↔ f Γ = .ok a ∧ Γ' = Γ := by
  have houtcome : outcome (Check.withContext f) Γ = (f Γ, Γ) := rfl
  rw [houtcome, Prod.mk.injEq, eq_comm (a := Γ)]

theorem outcome_update_eq_ok {f : Context → Except LangError Context} {u : Unit} :
    outcome (Check.update f) Γ = (.ok u, Γ') ↔ f Γ = .ok Γ' := by
  rw [Check.update, outcome_bind_eq_ok]
  simp only [outcome_withContext_eq_ok, outcome_set]
  constructor
  · rintro ⟨Γ'', _, ⟨hf, -⟩, h⟩
    cases h
    exact hf
  · intro hf
    exact ⟨Γ', Γ, ⟨hf, rfl⟩, rfl⟩

/-- `Chain.set` binds a new name in the innermost level. -/
theorem Chain.set_eq_ok {c c' : Chain α} {name : String} {a : α} :
    c.set name a = .ok c' ↔
      c.here.get? name = none ∧ c' = { c with here := c.here.insert name a } := by
  rw [Chain.set, Chain.hasLocal]
  cases h : c.here.contains name with
  | true =>
    rw [if_pos rfl]
    refine iff_of_false (nomatch ·) fun hnone => ?_
    rw [Table.contains_eq_false.mpr hnone.1] at h
    cases h
  | false =>
    rw [if_neg Bool.false_ne_true, Except.ok.injEq, eq_comm]
    exact ⟨fun hc => ⟨Table.contains_eq_false.mp h, hc⟩, And.right⟩

/-- `Chain.declare` declares a data type if the registry can declare it. -/
theorem Chain.outcome_declare_eq {c c' : Chain α} {name : String}
    {constructors : List (String × List Ty)} {r : Except LangError Unit} :
    outcome (Chain.declare name constructors) c = (r, c') ↔
      ∃ R, outcome (Registry.declare name constructors) c.registry = (r, R) ∧
        c' = { c with registry := R } :=
  outcome_onPart_eq

/-- `forM` of checks succeeds if each of them does. -/
theorem forM_eq_ok {ε : Type} {f : α → Except ε Unit} {as : List α} {u : Unit} :
    as.forM f = .ok u ↔ ∀ a ∈ as, f a = .ok () := by
  induction as with
  | nil => simp [pure, Except.pure]
  | cons a as ih =>
    rw [List.forM, bind_eq_ok, List.forall_mem_cons, ← ih]
    constructor
    · rintro ⟨_, ha, has⟩
      exact ⟨ha, has⟩
    · rintro ⟨ha, has⟩
      exact ⟨⟨⟩, ha, has⟩

end Steps

/-! ### Binding constructors -/

namespace Table

variable {α β : Type}

/-- The table with the constructors bound, one after the other. -/
def bindAll (t : Table α) (f : ConstructorDecl → α) (cs : List ConstructorDecl) : Table α :=
  cs.foldl (fun t c => t.insert c.name (f c)) t

theorem get?_bindAll_of_notMem {f : ConstructorDecl → α} {cs : List ConstructorDecl} {name : String}
    (h : name ∉ cs.map ConstructorDecl.name) (t : Table α) :
    (t.bindAll f cs).get? name = t.get? name := by
  induction cs generalizing t with
  | nil => rfl
  | cons c cs ih =>
    rw [List.map_cons, List.mem_cons, not_or] at h
    exact (ih h.2 (t.insert c.name (f c))).trans (get?_insert_of_ne h.1 t (f c))

theorem get?_bindAll_eq_none {t : Table α} {f : ConstructorDecl → α} {cs : List ConstructorDecl}
    {name : String} : (t.bindAll f cs).get? name = none ↔
      t.get? name = none ∧ name ∉ cs.map ConstructorDecl.name := by
  induction cs generalizing t with
  | nil => simp [bindAll]
  | cons c cs ih =>
    refine ih.trans ?_
    rw [get?_insert, List.map_cons, List.mem_cons, not_or]
    split
    · next hname => simp [hname]
    · next hname => simp [hname]

theorem get?_bindAll_of_mem {f : ConstructorDecl → α} {cs : List ConstructorDecl}
    (hnodup : (cs.map ConstructorDecl.name).Nodup) {c : ConstructorDecl} (hc : c ∈ cs)
    (t : Table α) :
    (t.bindAll f cs).get? c.name = some (f c) := by
  induction cs generalizing t with
  | nil => cases hc
  | cons c' cs ih =>
    rw [List.map_cons, List.nodup_cons] at hnodup
    rcases List.mem_cons.mp hc with rfl | hc
    · exact (get?_bindAll_of_notMem hnodup.1 _).trans (get?_insert_self t c.name (f c))
    · exact ih hnodup.2 hc (t.insert c'.name (f c'))

theorem names_insert_congr {t : Table α} {u : Table β} (h : t.names = u.names)
    (name : String) (a : α)
    (b : β) : (t.insert name a).names = (u.insert name b).names := by
  by_cases hname : name ∈ t.names
  · rw [names_insert_of_mem hname, names_insert_of_mem (h ▸ hname), h]
  · rw [names_insert_of_notMem hname, names_insert_of_notMem (h ▸ hname), h]

theorem names_bindAll_congr {t : Table α} {u : Table β} (h : t.names = u.names)
    (f : ConstructorDecl → α) (g : ConstructorDecl → β) (cs : List ConstructorDecl) :
    (t.bindAll f cs).names = (u.bindAll g cs).names := by
  induction cs generalizing t u with
  | nil => exact h
  | cons c cs ih => exact ih (names_insert_congr h c.name (f c) (g c))

/-- Tables that read a name alike do so after `bindAll` in both, if that name is bound to the same
thing in both. -/
theorem get?_bindAll_congr {t u : Table α} {f g : ConstructorDecl → α} {name : String}
    (h : t.get? name = u.get? name) {cs : List ConstructorDecl}
    (hfg : ∀ c ∈ cs, c.name = name → f c = g c) :
    (t.bindAll f cs).get? name = (u.bindAll g cs).get? name := by
  induction cs generalizing t u with
  | nil => exact h
  | cons c cs ih =>
    obtain ⟨hc, hcs⟩ := List.forall_mem_cons.mp hfg
    refine ih ?_ hcs
    rw [get?_insert, get?_insert]
    split
    · next hname => rw [hc hname.symm]
    · exact h

end Table

/-- `declare` accepts only a data type with constructors that differ. -/
theorem Registry.nodup_of_declare {R R' : Registry} {name : String} {cs : List ConstructorDecl}
    (h : outcome (Registry.declare name (cs.map fun c => (c.name, c.fields))) R = (.ok (), R')) :
    (cs.map ConstructorDecl.name).Nodup := by
  obtain ⟨-, -, hnodup, -⟩ := declare_eq_ok h
  simpa [Function.comp_def] using hnodup

/-- Constructors are `set` one after the other if they are new and differ. -/
theorem outcome_forM_set_eq_ok {f : ConstructorDecl → Ty} {cs : List ConstructorDecl}
    {Γ Γ' : Context} {u : PUnit} :
    outcome (cs.forM fun c => Check.update (·.set c.name (f c))) Γ = (.ok u, Γ') ↔
      (∀ c ∈ cs, Γ.here.get? c.name = none) ∧ (cs.map ConstructorDecl.name).Nodup ∧
        Γ' = { Γ with here := Γ.here.bindAll f cs } := by
  induction cs generalizing Γ with
  | nil => simp [Table.bindAll, eq_comm]
  | cons c cs ih =>
    rw [List.forM, outcome_bind_eq_ok]
    simp only [outcome_update_eq_ok, Chain.set_eq_ok, ih]
    rw [List.forall_mem_cons, List.map_cons, List.nodup_cons]
    -- once a name is bound, the names after it are new if they differ from it
    have hnew : (∀ c' ∈ cs, (Γ.here.insert c.name (f c)).get? c'.name = none) ↔
        (∀ c' ∈ cs, Γ.here.get? c'.name = none) ∧ c.name ∉ cs.map ConstructorDecl.name := by
      simp only [Table.get?_insert, List.mem_map, not_exists, not_and, ← forall₂_and]
      refine forall₂_congr fun c' _ => ?_
      split
      · next hname => simp [hname]
      · next hname => simp [hname]
    constructor
    · rintro ⟨_, Γ₁, ⟨hc, rfl⟩, hcs, hnodup, rfl⟩
      obtain ⟨hcs, hmem⟩ := hnew.mp hcs
      exact ⟨⟨hc, hcs⟩, ⟨hmem, hnodup⟩, rfl⟩
    · rintro ⟨⟨hc, hcs⟩, ⟨hmem, hnodup⟩, rfl⟩
      exact ⟨⟨⟩, _, ⟨hc, rfl⟩, hnew.mpr ⟨hcs, hmem⟩, hnodup, rfl⟩

/-! ### Statements -/

/-- The context before and after a statement that checks. -/
inductive Stmt.Checks (agree : Ty → Ty → Bool) (Γ : Context) : Stmt → Context → Prop
  /-- A definition binds a new name to the type of its value. -/
  | define {name : String} {value : Expr} {span : Option Span} {ty : Ty}
    (hvalue : Γ.inferWith agree value = .ok ty) (hname : Γ.here.get? name = none) :
    Checks agree Γ (.define name value span) { Γ with here := Γ.here.insert name ty }
  /-- An assignment keeps the type of its target. -/
  | assign {name : String} {value : Expr} {nameSpan span : Option Span} {ty valueTy : Ty}
    (hvalue : Γ.inferWith agree value = .ok valueTy) (hname : Γ.get? name = some ty)
    (hagree : ty.agrees valueTy = true) :
    Checks agree Γ (.assign (.var name nameSpan) value span) Γ
  | print {value : Expr} {span : Option Span} {ty : Ty}
    (hvalue : Γ.inferWith agree value = .ok ty) :
    Checks agree Γ (.print value span) Γ
  /-- A data declaration binds its constructors, which are new. -/
  | data {name : String} {constructors : List ConstructorDecl} {span : Option Span} {R : Registry}
    (hnew : ∀ c ∈ constructors, Γ.here.get? c.name = none)
    (hfields : ∀ c ∈ constructors, Check.allDeclared name c.span Γ.registry c.fields = .ok ())
    (hdeclare : outcome (Registry.declare name (constructors.map fun c => (c.name, c.fields)))
      Γ.registry = (.ok (), R)) :
    Checks agree Γ (.data name constructors span)
      { Γ with registry := R, here := Γ.here.bindAll (Check.constructorTy name) constructors }

variable {agree agree' : Ty → Ty → Bool} {Γ Γ' : Context} {s : Stmt}

/-- `Check.constructor` accepts a constructor if it is new and its fields have declared types. -/
theorem Check.constructor_eq_ok {own : String} {c : ConstructorDecl} {u : Unit} :
    Check.constructor own Γ c = .ok u ↔
      Γ.here.get? c.name = none ∧ allDeclared own c.span Γ.registry c.fields = .ok () := by
  rw [Check.constructor, ← Table.contains_eq_false, Chain.hasLocal]
  cases Γ.here.contains c.name with
  | true => exact iff_of_false (nomatch ·) fun h => nomatch h.1
  | false => exact ⟨fun h => ⟨rfl, h⟩, And.right⟩

/-- What a `data` declaration that checks has done. -/
theorem Check.data_eq_ok {name : String} {constructors : List ConstructorDecl} {span : Option Span}
    {u : Unit} :
    outcome (Check.data name constructors span) Γ = (.ok u, Γ') ↔
      (∀ c ∈ constructors, Γ.here.get? c.name = none) ∧
      (∀ c ∈ constructors, allDeclared name c.span Γ.registry c.fields = .ok ()) ∧
      ∃ R, outcome (Registry.declare name (constructors.map fun c => (c.name, c.fields)))
          Γ.registry = (.ok (), R) ∧
        Γ' =
          { Γ with registry := R, here := Γ.here.bindAll (constructorTy name) constructors } := by
  rw [Check.data, outcome_bind_eq_ok]
  simp only [outcome_bind_eq_ok, outcome_withContext_eq_ok, Chain.outcome_declare_eq,
    outcome_forM_set_eq_ok]
  constructor
  · rintro ⟨_, _, ⟨hchecks, rfl⟩, _, _, ⟨R, hdeclare, rfl⟩, hnew, -, rfl⟩
    split at hchecks
    · cases hchecks
    · have hfields := fun c hc => (constructor_eq_ok.mp (forM_eq_ok.mp hchecks c hc)).2
      exact ⟨hnew, hfields, R, hdeclare, rfl⟩
  · rintro ⟨hnew, hfields, R, hdeclare, rfl⟩
    have hnames := Registry.nodup_of_declare hdeclare
    refine ⟨⟨⟩, Γ, ⟨?_, rfl⟩, ⟨⟩, _, ⟨R, hdeclare, rfl⟩, hnew, hnames, rfl⟩
    rw [(Registry.declare_eq_ok hdeclare).1, Option.isSome_none, if_neg Bool.false_ne_true]
    exact forM_eq_ok.mpr fun c hc => constructor_eq_ok.mpr ⟨hnew c hc, hfields c hc⟩

/-- What an `assign` that checks needs. -/
theorem Check.assign_eq_ok {target value : Expr} {span : Option Span} {u : Unit} :
    Check.assign agree target value span Γ = .ok u ↔
      ∃ name nameSpan ty valueTy, target = .var name nameSpan ∧
        Γ.inferWith agree value = .ok valueTy ∧ Γ.get? name = some ty ∧
        ty.agrees valueTy = true := by
  rw [Check.assign.eq_def]
  split
  · next name nameSpan =>
    simp only [bind_eq_ok, expectTy_eq_ok]
    constructor
    · rintro ⟨valueTy, hvalue, ty, hname, hagree⟩
      rw [Chain.get] at hname
      cases hget : Γ.get? name with
      | none =>
        rw [hget] at hname
        cases hname
      | some ty' =>
        rw [hget] at hname
        cases hname
        exact ⟨name, nameSpan, ty, valueTy, rfl, hvalue, hget, hagree⟩
    · rintro ⟨name', _, ty, valueTy, hvar, hvalue, hname, hagree⟩
      cases hvar
      refine ⟨valueTy, hvalue, ty, ?_, hagree⟩
      rw [Chain.get, hname]
  · next hvar =>
    refine iff_of_false (nomatch ·) ?_
    rintro ⟨name, nameSpan, _, _, rfl, -⟩
    exact hvar name nameSpan rfl

/-- What checking a statement does to the context is what `Stmt.Checks` says. -/
theorem Check.stmtWith_eq_ok {u : Unit} :
    outcome (Check.stmtWith agree s) Γ = (.ok u, Γ') ↔ s.Checks agree Γ Γ' := by
  rw [Check.stmtWith.eq_def, outcome_adapt_eq_ok]
  cases s with
  | define name value span =>
    simp only [outcome_bind_eq_ok, outcome_withContext_eq_ok, outcome_update_eq_ok, Chain.set_eq_ok]
    constructor
    · rintro ⟨ty, _, ⟨hvalue, rfl⟩, hname, rfl⟩
      exact .define hvalue hname
    · intro h
      cases h with | define hvalue hname => exact ⟨_, _, ⟨hvalue, rfl⟩, hname, rfl⟩
  | assign target value span =>
    simp only [outcome_withContext_eq_ok, assign_eq_ok]
    constructor
    · rintro ⟨⟨name, nameSpan, ty, valueTy, rfl, hvalue, hname, hagree⟩, rfl⟩
      exact .assign hvalue hname hagree
    · intro h
      cases h with
      | assign hvalue hname hagree => exact ⟨⟨_, _, _, _, rfl, hvalue, hname, hagree⟩, rfl⟩
  | print value span =>
    simp only [outcome_bind_eq_ok, outcome_withContext_eq_ok, outcome_pure]
    constructor
    · rintro ⟨ty, _, ⟨hvalue, rfl⟩, h⟩
      cases h
      exact .print hvalue
    · intro h
      cases h with | print hvalue => exact ⟨_, _, ⟨hvalue, rfl⟩, rfl⟩
  | data name constructors span =>
    simp only [data_eq_ok]
    constructor
    · rintro ⟨hnew, hfields, R, hdeclare, rfl⟩
      exact .data hnew hfields hdeclare
    · intro h
      cases h with | data hnew hfields hdeclare => exact ⟨hnew, hfields, _, hdeclare, rfl⟩

/-! ### What stays -/

/-- `inferWith` finds the same type when more is accepted for the branches of a choice. -/
theorem Context.inferWith_mono {d : Declared} {e : Expr} (h : e.Readable d)
    (hagree : ∀ a b, agree a b = true → agree' a b = true) {ty : Ty}
    (hty : Γ.inferWith agree e = .ok ty) : Γ.inferWith agree' e = .ok ty := by
  have hlook : ∀ name, d.isNullary name = false → Γ.get? name = Γ.get? name := fun _ _ => rfl
  rw [Expr.inferWith_eq_ok_iff h hlook] at hty ⊢
  exact hty.mono hagree Γ.registry.le_refl fun _ => ⟨fun _ h => h, fun _ h => h⟩

namespace Stmt.Checks

/-- `Stmt.Checks` stays when more is accepted for the branches of a choice. -/
theorem mono {d : Declared} (hs : s.Readable d)
    (hagree : ∀ a b, agree a b = true → agree' a b = true)
    (h : s.Checks agree Γ Γ') : s.Checks agree' Γ Γ' := by
  cases h with
  | define hvalue hname =>
    cases hs with
    | define _ hread => exact .define (Context.inferWith_mono hread hagree hvalue) hname
  | assign hvalue hname hty =>
    cases hs with
    | assign _ hread => exact .assign (Context.inferWith_mono hread hagree hvalue) hname hty
  | print hvalue =>
    cases hs with
    | print hread => exact .print (Context.inferWith_mono hread hagree hvalue)
  | data hnew hfields hdeclare => exact .data hnew hfields hdeclare

theorem outer_eq (h : s.Checks agree Γ Γ') : Γ'.outer = Γ.outer := by
  cases h <;> rfl

theorem registry_le (h : s.Checks agree Γ Γ') : Γ.registry ≤ Γ'.registry := by
  cases h with
  | data _ _ hdeclare => exact Registry.le_of_declare hdeclare
  | _ => exact Γ.registry.le_refl

/-- The constructors of a statement that `Checks` differ from the names bound before. -/
theorem notMem_constructors (h : s.Checks agree Γ Γ') {name : String} {ty : Ty}
    (hname : Γ.here.get? name = some ty) : name ∉ s.constructors.map ConstructorDecl.name := by
  intro hmem
  cases h with
  | data hnew =>
    obtain ⟨c, hc, rfl⟩ := List.mem_map.mp hmem
    rw [hnew c hc] at hname
    cases hname
  | _ => cases hmem

/-- Names keep their types after a statement that `Checks`. -/
theorem get?_eq_some (h : s.Checks agree Γ Γ') {name : String} {ty : Ty}
    (hname : Γ.here.get? name = some ty) : Γ'.here.get? name = some ty := by
  have hmem := h.notMem_constructors hname
  cases h with
  | define _ hfree =>
    have hne : name ≠ _ := fun heq => by rw [heq, hfree] at hname; cases hname
    exact (Table.get?_insert_of_ne hne _ _).trans hname
  | assign => exact hname
  | print => exact hname
  | data => exact (Table.get?_bindAll_of_notMem hmem _).trans hname

/-- A name that is bound already does not become a constructor for reading. -/
theorem isNullary_after (h : s.Checks agree Γ Γ') {name : String} {ty : Ty}
    (hname : Γ.here.get? name = some ty) (d : Declared) :
    (d.after s).isNullary name = d.isNullary name := by
  have hafter : (d.after s).constructors.get? name = d.constructors.get? name := by
    rw [Declared.constructors_after]
    exact Table.get?_bindAll_of_notMem (h.notMem_constructors hname) d.constructors
  rw [Declared.isNullary, Declared.isNullary, hafter]

/-- If only bound names are constructors, this stays so after a statement that `Checks`. -/
theorem constructors_bound (h : s.Checks agree Γ Γ') {d : Declared}
    (hd : ∀ name, Γ.here.get? name = none → d.constructors.get? name = none) :
    ∀ name, Γ'.here.get? name = none → (d.after s).constructors.get? name = none := by
  intro name hname
  cases h with
  | define =>
    rw [Table.get?_insert] at hname
    split at hname
    · cases hname
    · exact hd name hname
  | assign => exact hd name hname
  | print => exact hd name hname
  | data =>
    obtain ⟨hname, hmem⟩ := Table.get?_bindAll_eq_none.mp hname
    rw [Declared.constructors_after]
    exact Table.get?_bindAll_eq_none.mpr ⟨hd name hname, hmem⟩

/-- A name that is no constructor without fields (`isNullary`) after a statement was none before. -/
theorem isNullary_eq_false (h : s.Checks agree Γ Γ') {d : Declared}
    (hd : ∀ name, Γ.here.get? name = none → d.constructors.get? name = none) {name : String}
    (hname : (d.after s).isNullary name = false) : d.isNullary name = false := by
  cases hget : Γ.here.get? name with
  | none =>
    rw [Declared.isNullary, hd name hget]
    rfl
  | some ty => rw [← h.isNullary_after hget d, hname]

end Stmt.Checks

/-! ### Programs -/

/-- The context before and after the statements of a program that check. -/
inductive Program.Checks (agree : Ty → Ty → Bool) : Context → Program → Context → Prop
  | nil {Γ : Context} : Checks agree Γ [] Γ
  | cons {Γ Γ₁ Γ' : Context} {s : Stmt} {p : Program} (h : s.Checks agree Γ Γ₁)
    (hs : Checks agree Γ₁ p Γ') : Checks agree Γ (s :: p) Γ'

/-- What checking a program does to the context is what `Program.Checks` says. -/
theorem Check.forM_stmtWith_eq_ok {p : Program} {u : Unit} :
    outcome (p.forM (Check.stmtWith agree)) Γ = (.ok u, Γ') ↔ p.Checks agree Γ Γ' := by
  induction p generalizing Γ with
  | nil =>
    constructor
    · intro h
      cases h
      exact .nil
    · intro h
      cases h
      rfl
  | cons s p ih =>
    rw [List.forM, outcome_bind_eq_ok]
    simp only [stmtWith_eq_ok, ih]
    constructor
    · rintro ⟨_, Γ₁, hs, hp⟩
      exact .cons hs hp
    · intro h
      cases h with | cons hs hp => exact ⟨⟨⟩, _, hs, hp⟩

namespace Program.Checks

variable {p q : Program}

/-- `Program.Checks` stays when more is accepted for the branches of a choice. -/
theorem mono {d : Declared} (hp : p.Readable d)
    (hagree : ∀ a b, agree a b = true → agree' a b = true) (h : p.Checks agree Γ Γ') :
    p.Checks agree' Γ Γ' := by
  induction h generalizing d with
  | nil => exact .nil
  | cons hs _ ih => exact .cons (hs.mono hp.1 hagree) (ih hp.2)

/-- Checking a program has one result. -/
theorem unique {Γ'' : Context} (h : p.Checks agree Γ Γ') (h' : p.Checks agree Γ Γ'') :
    Γ' = Γ'' := by
  rw [← Check.forM_stmtWith_eq_ok (u := ())] at h h'
  rw [h] at h'
  cases h'
  rfl

theorem append (h : Program.Checks agree Γ (p ++ q) Γ') :
    ∃ Γ₁, p.Checks agree Γ Γ₁ ∧ q.Checks agree Γ₁ Γ' := by
  induction p generalizing Γ with
  | nil => exact ⟨Γ, .nil, h⟩
  | cons s p ih =>
    cases h with
    | cons hs h =>
      obtain ⟨Γ₁, hp, hq⟩ := ih h
      exact ⟨Γ₁, .cons hs hp, hq⟩

theorem outer_eq (h : p.Checks agree Γ Γ') : Γ'.outer = Γ.outer := by
  induction h with
  | nil => rfl
  | cons hs _ ih => exact ih.trans hs.outer_eq

theorem registry_le (h : p.Checks agree Γ Γ') : Γ.registry ≤ Γ'.registry := by
  induction h with
  | nil => exact Registry.le_refl _
  | cons hs _ ih => exact Registry.le_trans hs.registry_le ih

/-- Names keep their types after a program that `Checks`. -/
theorem get?_eq_some (h : p.Checks agree Γ Γ') {name : String} {ty : Ty}
    (hname : Γ.here.get? name = some ty) : Γ'.here.get? name = some ty := by
  induction h with
  | nil => exact hname
  | cons hs _ ih => exact ih (hs.get?_eq_some hname)

theorem isNullary_after (h : p.Checks agree Γ Γ') {name : String} {ty : Ty}
    (hname : Γ.here.get? name = some ty) (d : Declared) :
    (p.foldl Declared.after d).isNullary name = d.isNullary name := by
  induction h generalizing d with
  | nil => rfl
  | cons hs _ ih =>
    exact (ih (hs.get?_eq_some hname) (d.after _)).trans (hs.isNullary_after hname d)

/-- A name that a program defines has a type after it `Checks`, and is no constructor. -/
theorem exists_get?_of_define (h : p.Checks agree Γ Γ') {d : Declared}
    (hd : ∀ name, Γ.here.get? name = none → d.constructors.get? name = none) {name : String}
    {value : Expr} {span : Option Span} (hmem : .define name value span ∈ p) :
    ∃ ty, Γ'.here.get? name = some ty ∧ (p.foldl Declared.after d).isNullary name = false := by
  induction h generalizing d with
  | nil => cases hmem
  | @cons Γ Γ₁ Γ' s p hs hp ih =>
    rcases List.mem_cons.mp hmem with rfl | hmem
    · cases hs with
      | @define _ _ _ ty hvalue hname =>
        have hbound : (Γ.here.insert name ty).get? name = some ty := Table.get?_insert_self _ _ _
        have hnullary : d.isNullary name = false := by
          rw [Declared.isNullary, hd name hname]
          rfl
        exact ⟨ty, hp.get?_eq_some hbound, (hp.isNullary_after hbound d).trans hnullary⟩
    · exact ih (hs.constructors_bound hd) hmem

end Program.Checks

end Casewise
