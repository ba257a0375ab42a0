import Casewise.Program.Form
import Casewise.Proofs.Outcome
import Casewise.Proofs.Reading.Readable
import Casewise.Proofs.Table

/-!
# Reading statement by statement

Only data declarations change how later forms read. `Declared.after` is what a statement adds to the
declarations, so the declarations before a statement are known from the statements before it, and
`Program.arity?` is what they say about a constructor. With them the rules of reading extend to
statements. A statement is readable if what stands in it is, after the declarations before it.

## Main definitions

* `Declared.after`: the declarations after a statement.
* `Program.arity?`: the number of fields of a constructor after the statements of a program.
* `Stmt.OfSexp`: what statement a form writes after given declarations.
* `Stmt.Readable`, `Program.Readable`: what is true of statements and programs that have been read.

## Main statements

* `Program.get?_foldl_after`: the declarations after a program know the constructors it declares.
* `Stmt.outcome_ofSexp_eq_ok`: what is read from a form as a statement is what the form writes.
* `Program.readable_of_parse`: whatever program is read from a text is readable.
-/

namespace Casewise

/-! ### What statements declare -/

/-- The constructors that a statement declares. -/
def Stmt.constructors : Stmt → List ConstructorDecl
  | data _ constructors _ => constructors
  | _ => []

/-- The declarations after a statement. -/
def Declared.after (d : Declared) : Stmt → Declared
  | .data name constructors _ => (d.addType name).addConstructors constructors
  | _ => d

/-- The number of fields of the constructor `name` in the latest declaration of it, if the program
declares it. -/
def Program.arity? (p : Program) (name : String) : Option Nat :=
  ((p.flatMap Stmt.constructors).reverse.find? (·.name = name)).map (·.fields.length)

/-- Of several declarations of a constructor the latest counts. -/
theorem Declared.get?_foldl_insert (cs : List ConstructorDecl) (t : Table Nat) (name : String) :
    (cs.foldl (fun t c => t.insert c.name c.fields.length) t).get? name =
      ((cs.reverse.find? (·.name = name)).map (·.fields.length)).or (t.get? name) := by
  induction cs generalizing t with
  | nil => rfl
  | cons c cs ih =>
    rw [List.foldl_cons, ih, List.reverse_cons, List.find?_append, Table.get?_insert]
    cases cs.reverse.find? (·.name = name) with
    | some c' => rfl
    | none =>
      by_cases hname : name = c.name
      · simp [hname]
      · have hname' : ¬ c.name = name := fun h => hname h.symm
        simp [hname, hname']

/-- The constructors known `after` a statement. -/
theorem Declared.constructors_after (d : Declared) (s : Stmt) :
    (d.after s).constructors =
      s.constructors.foldl (fun t c => t.insert c.name c.fields.length) d.constructors := by
  cases s with
  | data name constructors span =>
    rw [after, addConstructors, addType]
    split <;> rfl
  | _ => rfl

/-- The constructors known after the statements of a program: those of `arity?`, and the ones known
before. -/
theorem Program.get?_foldl_after (p : Program) (d : Declared) (name : String) :
    (p.foldl Declared.after d).constructors.get? name =
      (p.arity? name).or (d.constructors.get? name) := by
  rw [arity?, ← Declared.get?_foldl_insert]
  congr 1
  induction p generalizing d with
  | nil => rfl
  | cons s p ih =>
    rw [List.foldl_cons, ih, Declared.constructors_after, List.flatMap_cons, List.foldl_append]

/-! ### Reading rules for statements -/

@[simp]
theorem outcome_withDeclared {α : Type} (f : Declared → Except Failure α) (d : Declared) :
    outcome (Reading.withDeclared f) d = (f d, d) :=
  rfl

theorem outcome_withDeclared_bind_eq_ok {α β : Type} {f : Declared → Except Failure α}
    {g : α → Reading β} {d d' : Declared} {b : β} :
    outcome (Reading.withDeclared f >>= g) d = (.ok b, d') ↔
      ∃ a, f d = .ok a ∧ outcome (g a) d = (.ok b, d') := by
  simp [outcome_bind_eq_ok, and_assoc]

/-- The form writes the constructor of a data declaration, after the declarations `d`. -/
inductive ConstructorDecl.OfSexp (d : Declared) : Sexp → ConstructorDecl → Prop
  | atom (name : String) (span : Span) : OfSexp d (.atom name span) ⟨name, [], span⟩
  | list {name : String} {nameSpan span : Span} {fields : List Sexp} {tys : List Ty}
    (hfields : Ty.OfSexps d fields tys) :
    OfSexp d (.list (.atom name nameSpan :: fields) span) ⟨name, tys, span⟩

/-- `ConstructorDecl.ofSexp` has the constructor that the form writes. -/
theorem ConstructorDecl.ofSexp_eq_ok {d : Declared} {e : Sexp} {c : ConstructorDecl} :
    ofSexp d e = .ok c ↔ OfSexp d e c := by
  constructor
  · intro h
    rw [ofSexp.eq_def] at h
    split at h
    · cases h
      exact .atom _ _
    · obtain ⟨tys, htys, h⟩ := bind_eq_ok.mp h
      cases h
      exact .list (.of_ofSexps htys)
    · cases h
  · intro h
    cases h with
    | atom => rfl
    | list hfields => exact bind_eq_ok.mpr ⟨_, hfields.ofSexps_eq, rfl⟩

/-- The form writes the statement, after the declarations `d`. -/
inductive Stmt.OfSexp (d : Declared) : Sexp → Stmt → Prop
  | define {headSpan nameSpan span : Span} {name : String} {value : Sexp} {x : Expr}
    (hvalue : Expr.OfSexp d value x) :
    OfSexp d (.list [.atom "define" headSpan, .atom name nameSpan, value] span)
      (.define name x span)
  | assign {headSpan span : Span} {target value : Sexp} {x y : Expr}
    (htarget : Expr.OfSexp d target x) (hvalue : Expr.OfSexp d value y) :
    OfSexp d (.list [.atom "assign" headSpan, target, value] span) (.assign x y span)
  | print {headSpan span : Span} {value : Sexp} {x : Expr} (hvalue : Expr.OfSexp d value x) :
    OfSexp d (.list [.atom "print" headSpan, value] span) (.print x span)
  /-- A data declaration, whose fields may have the declared type. -/
  | data {headSpan nameSpan span : Span} {name : String} {forms : List Sexp}
    {constructors : List ConstructorDecl}
    (hforms : List.Forall₂ (ConstructorDecl.OfSexp (d.addType name)) forms constructors) :
    OfSexp d (.list (.atom "data" headSpan :: .atom name nameSpan :: forms) span)
      (.data name constructors span)

/-- `Stmt.ofSexp` has the statement that the form writes, and it changes the declarations to
`d.after s`. -/
theorem Stmt.outcome_ofSexp_eq_ok {e : Sexp} {d d' : Declared} {s : Stmt} :
    outcome (ofSexp e) d = (.ok s, d') ↔ OfSexp d e s ∧ d' = d.after s := by
  constructor
  · intro h
    rw [ofSexp.eq_def] at h
    split at h
    · cases h
    · split at h
      · obtain ⟨x, hx, h⟩ := outcome_withDeclared_bind_eq_ok.mp h
        cases h
        exact ⟨.define (.of_ofSexp hx), rfl⟩
      · cases h
      · cases h
    · split at h
      · obtain ⟨x, hx, h⟩ := outcome_withDeclared_bind_eq_ok.mp h
        obtain ⟨y, hy, h⟩ := outcome_withDeclared_bind_eq_ok.mp h
        cases h
        exact ⟨.assign (.of_ofSexp hx) (.of_ofSexp hy), rfl⟩
      · cases h
    · split at h
      · obtain ⟨x, hx, h⟩ := outcome_withDeclared_bind_eq_ok.mp h
        cases h
        exact ⟨.print (.of_ofSexp hx), rfl⟩
      · cases h
    · split at h
      · rw [outcome_bind_of_ok (outcome_modify _ d)] at h
        obtain ⟨constructors, hconstructors, h⟩ := outcome_withDeclared_bind_eq_ok.mp h
        rw [outcome_bind_of_ok (outcome_modify _ _)] at h
        cases h
        have hforms := (mapM_eq_ok.mp hconstructors).imp fun _ _ => ConstructorDecl.ofSexp_eq_ok.mp
        exact ⟨.data hforms, rfl⟩
      · cases h
    · cases h
    · cases h
  · rintro ⟨h, rfl⟩
    cases h with
    | define hvalue => exact outcome_withDeclared_bind_eq_ok.mpr ⟨_, hvalue.ofSexp_eq, rfl⟩
    | assign htarget hvalue =>
      exact outcome_withDeclared_bind_eq_ok.mpr ⟨_, htarget.ofSexp_eq,
        outcome_withDeclared_bind_eq_ok.mpr ⟨_, hvalue.ofSexp_eq, rfl⟩⟩
    | print hvalue => exact outcome_withDeclared_bind_eq_ok.mpr ⟨_, hvalue.ofSexp_eq, rfl⟩
    | data hforms =>
      have hconstructors := mapM_eq_ok.mpr (hforms.imp fun _ _ => ConstructorDecl.ofSexp_eq_ok.mpr)
      refine outcome_bind_of_ok (outcome_modify _ d) _ |>.trans ?_
      refine outcome_withDeclared_bind_eq_ok.mpr ⟨_, hconstructors, ?_⟩
      exact outcome_bind_of_ok (outcome_modify _ _) _

/-! ### Single statements -/

/-- What is true of statements read after the declarations `d`. -/
inductive Stmt.Readable (d : Declared) : Stmt → Prop
  /-- A definition has an atom as its name. -/
  | define {name : String} {value : Expr} {span : Option Span} (hatom : IsAtom name)
    (hvalue : value.Readable d) : Readable d (.define name value span)
  | assign {target value : Expr} {span : Option Span} (htarget : target.Readable d)
    (hvalue : value.Readable d) : Readable d (.assign target value span)
  | print {value : Expr} {span : Option Span} (hvalue : value.Readable d) :
    Readable d (.print value span)
  /-- The names in a data declaration are atoms, and its fields may have the declared type. -/
  | data {name : String} {constructors : List ConstructorDecl} {span : Option Span}
    (hatom : IsAtom name) (hnames : ∀ c ∈ constructors, IsAtom c.name)
    (hfields : ∀ c ∈ constructors, ∀ ty ∈ c.fields, ty.Readable (d.addType name)) :
    Readable d (.data name constructors span)

/-- A constructor of a readable statement is an atom. -/
theorem Stmt.Readable.isAtom {d : Declared} {s : Stmt} (h : s.Readable d) :
    ∀ c ∈ s.constructors, IsAtom c.name := by
  cases h with
  | data _ hnames _ => exact hnames
  | _ => exact fun c hc => absurd hc List.not_mem_nil

/-- The constructor that a form writes has an atom as its name and readable fields. -/
theorem ConstructorDecl.OfSexp.readable {d : Declared} {e : Sexp} {c : ConstructorDecl}
    (h : OfSexp d e c) (he : e.form.IsReadable) :
    IsAtom c.name ∧ ∀ ty ∈ c.fields, ty.Readable d := by
  cases h with
  | atom => exact ⟨he, List.forall_mem_nil _⟩
  | list hfields =>
    have hitems := Sexp.isReadable_of_mem he
    exact ⟨hitems _ List.mem_cons_self,
      hfields.readable fun e he => hitems e (List.mem_cons_of_mem _ he)⟩

/-- Whatever statement a form writes is readable. -/
theorem Stmt.OfSexp.readable {d : Declared} {e : Sexp} {s : Stmt} (h : OfSexp d e s)
    (he : e.form.IsReadable) : s.Readable d := by
  cases h with
  | @define _ nameSpan _ name _ _ hvalue =>
    have hitems := Sexp.isReadable_of_mem he
    exact .define (hitems (.atom name nameSpan) (by simp)) (hvalue.readable (hitems _ (by simp)))
  | assign htarget hvalue =>
    have hitems := Sexp.isReadable_of_mem he
    exact .assign (htarget.readable (hitems _ (by simp))) (hvalue.readable (hitems _ (by simp)))
  | print hvalue =>
    have hitems := Sexp.isReadable_of_mem he
    exact .print (hvalue.readable (hitems _ (by simp)))
  | @data _ nameSpan _ name forms constructors hforms =>
    have hitems := Sexp.isReadable_of_mem he
    have hread := forall_mem_right hforms fun e he _ hc => hc.readable (hitems e (by simp [he]))
    exact .data (hitems (.atom name nameSpan) (by simp)) (fun c hc => (hread c hc).1)
      fun c hc => (hread c hc).2

/-! ### Programs -/

/-- What is true of programs read after the declarations `d`. -/
def Program.Readable : Declared → Program → Prop
  | _, [] => True
  | d, s :: p => s.Readable d ∧ Program.Readable (d.after s) p

theorem Program.readable_append {p q : Program} {d : Declared} :
    Program.Readable d (p ++ q) ↔ p.Readable d ∧ q.Readable (p.foldl Declared.after d) := by
  induction p generalizing d with
  | nil => exact ⟨fun h => ⟨trivial, h⟩, And.right⟩
  | cons s p ih => exact (and_congr_right fun _ => ih).trans and_assoc.symm

theorem outcome_mapM_cons_eq_ok {e : Sexp} {es : List Sexp} {d d' : Declared} {p : Program} :
    outcome ((e :: es).mapM Stmt.ofSexp) d = (.ok p, d') ↔
      ∃ s d₁ q, outcome (Stmt.ofSexp e) d = (.ok s, d₁) ∧
        outcome (es.mapM Stmt.ofSexp) d₁ = (.ok q, d') ∧ p = s :: q := by
  rw [List.mapM_cons, outcome_bind_eq_ok]
  refine exists₂_congr fun s d₁ => ?_
  rw [outcome_bind_eq_ok]
  simp [eq_comm]

theorem Program.Readable.exists_of_mem {p : Program} {d : Declared} (h : p.Readable d) {s : Stmt}
    (hs : s ∈ p) : ∃ d', s.Readable d' := by
  obtain ⟨before, after, rfl⟩ := List.append_of_mem hs
  exact ⟨_, (Program.readable_append.mp h).2.1⟩

/-- Whatever program is read from forms is readable. -/
theorem Program.readable_of_mapM {es : List Sexp} (hes : ∀ e ∈ es, e.form.IsReadable)
    {d d' : Declared} {p : Program} (h : outcome (es.mapM Stmt.ofSexp) d = (.ok p, d')) :
    p.Readable d := by
  induction es generalizing d p with
  | nil => cases h; trivial
  | cons e es ih =>
    obtain ⟨he, hes⟩ := List.forall_mem_cons.mp hes
    obtain ⟨s, d₁, q, hs, hq, rfl⟩ := outcome_mapM_cons_eq_ok.mp h
    obtain ⟨hwrites, rfl⟩ := Stmt.outcome_ofSexp_eq_ok.mp hs
    exact ⟨hwrites.readable he, ih hes hq⟩

/-- `Program.read` has the statements that the forms of the text are. -/
theorem Program.outcome_read_eq_ok {file source : String} {d d' : Declared} {p : Program} :
    outcome (Program.read file source) d = (.ok p, d') ↔
      ∃ es, Casewise.read file source = .ok es ∧ outcome (es.mapM Stmt.ofSexp) d = (.ok p, d') := by
  rw [read, outcome_withDeclared_bind_eq_ok]
  exact exists_congr fun es => and_congr_left fun _ => mapError_eq_ok

/-- `parse` has a program if the text is a sequence of forms that are statements. -/
theorem parse_eq_ok {file source : String} {p : Program} :
    parse file source = .ok p ↔
      ∃ es d, read file source = .ok es ∧ outcome (es.mapM Stmt.ofSexp) {} = (.ok p, d) := by
  have houtcome : parse file source = (outcome (Program.read file source) {}).1 := rfl
  have hread : (outcome (Program.read file source) {}).1 = .ok p ↔
      ∃ d, outcome (Program.read file source) {} = (.ok p, d) :=
    ⟨fun h => ⟨_, Prod.ext h rfl⟩, fun ⟨d, h⟩ => by rw [h]⟩
  rw [houtcome, hread, exists_comm]
  exact exists_congr fun d => Program.outcome_read_eq_ok

/-- Whatever program `parse` has read is `Program.Readable`. -/
theorem Program.readable_of_parse {file source : String} {p : Program}
    (h : parse file source = .ok p) : p.Readable {} := by
  obtain ⟨es, d, hes, hp⟩ := parse_eq_ok.mp h
  exact Program.readable_of_mapM (isReadable_of_read hes) hp

end Casewise
