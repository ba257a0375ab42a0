import Casewise.Proofs.Reading.Statements
import Casewise.Proofs.Writing.Expressions

/-!
# Reading written programs

A program that has been read is written with one statement on each line. What is written always
reads as nested forms again, and data declarations always read as themselves; so the written program
is read with the same constructors at hand, statement by statement, and reads as itself exactly if
everything in its expressions is clear where it stands.

## Main definitions

* `Stmt.form`: the form as which a statement is written.
* `Stmt.exprs`: the expressions of a statement.

## Main statements

* `Program.writes`: a readable program is written as the forms of its statements.
* `Program.reads_back_iff`: which programs read as themselves when they are written.
-/

namespace Casewise

/-! ### The forms of statements -/

/-- The form as which a constructor is declared. -/
def ConstructorDecl.form (c : ConstructorDecl) : Form :=
  .list (.atom c.name :: c.fields.map Ty.form)

namespace Stmt

/-- The form as which a statement is written. -/
def form : Stmt → Form
  | define name value _ => .list [.atom "define", .atom name, value.form]
  | assign target value _ => .list [.atom "assign", target.form, value.form]
  | print value _ => .list [.atom "print", value.form]
  | data name constructors _ =>
    .list (.atom "data" :: .atom name :: constructors.map ConstructorDecl.form)

/-- The expressions of a statement. -/
def exprs : Stmt → List Expr
  | define _ value _ => [value]
  | assign target value _ => [target, value]
  | print value _ => [value]
  | data .. => []

end Stmt

/-- A constructor with readable fields `Writes` its form. -/
theorem ConstructorDecl.writes {d : Declared} {c : ConstructorDecl} (hname : IsAtom c.name)
    (hfields : ∀ ty ∈ c.fields, ty.Readable d) : Writes c.text c.form :=
  .list (.cons (.atom hname) (writes_map fun ty hty => (hfields ty hty).writes))

/-- A `Readable` statement `Writes` its form. -/
theorem Stmt.Readable.writes {d : Declared} {s : Stmt} (h : s.Readable d) :
    Writes s.text s.form := by
  cases h with
  | define hatom hvalue =>
    exact .list (.cons (.word "define" (by decide))
      (.cons (.atom hatom) (.cons hvalue.writes .nil)))
  | assign htarget hvalue =>
    exact .list
      (.cons (.word "assign" (by decide)) (.cons htarget.writes (.cons hvalue.writes .nil)))
  | print hvalue => exact .list (.cons (.word "print" (by decide)) (.cons hvalue.writes .nil))
  | @data name constructors span hatom hnames hfields =>
    -- the constructors are one piece of text, which is empty if there are none
    have hconstructors : Spelt (Text.joined " " (constructors.map ConstructorDecl.text))
        (Form.lexemesAll (constructors.map ConstructorDecl.form)) :=
      spelt_setApart (setApart_joined isSeparator_space _)
        (writes_map fun c hc => ConstructorDecl.writes (hnames c hc) (hfields c hc))
    have hspelt := Spelt.parenthesized (.cons (Writes.word "data" (by decide))
      (.cons (Writes.atom hatom) (.cons hconstructors .nil)))
    simpa [Writes, Stmt.text, Stmt.form, Form.lexemes, Form.lexemesAll] using hspelt

/-- The statements of a `Readable` program are written as their forms. -/
theorem Program.Readable.writes_stmts {d : Declared} {p : Program} (h : p.Readable d) :
    List.Forall₂ Writes (p.map Stmt.text) (p.map Stmt.form) := by
  induction p generalizing d with
  | nil => exact .nil
  | cons s p ih => exact .cons h.1.writes (ih h.2)

/-- A `Readable` program `Spells` the forms of its statements. -/
theorem Program.Readable.writes {d : Declared} {p : Program} (h : p.Readable d) :
    Spells p.text.toList (Form.lexemesAll (p.map Stmt.form)) := by
  have hnewline : "\n".toList = ['\n'] := rfl
  have hspelt := spelt_setApart (setApart_joined isSeparator_newline _) h.writes_stmts
  have hend : EndsAtom ['\n'] := fun c hc => by cases hc; decide
  have hspells := @hspelt ['\n'] [] hend (.blank (by decide) .nil)
  rwa [List.append_nil, ← hnewline, ← String.toList_append] at hspells

/-! ### Statements apart from spans -/

theorem all_zip_iff {α : Type} {same : α → α → Bool} {as bs : List α} :
    (decide (as.length = bs.length) && (as.zip bs).all fun (a, b) => same a b) = true ↔
      List.Forall₂ (fun a b => same a b = true) as bs := by
  rw [Bool.and_eq_true, decide_eq_true_eq, List.all_eq_true, List.forall₂_iff_zip]
  exact and_congr_right fun _ => ⟨fun h _ _ hmem => h _ hmem, fun h _ hmem => h hmem⟩

theorem Program.same_iff_forall₂ {p q : Program} :
    Program.same p q = true ↔ List.Forall₂ (fun s t => s.same t = true) p q :=
  all_zip_iff

/-- Constructors that are `same`, so equal apart from spans, are remembered alike. -/
theorem Declared.foldl_insert_eq_of_same {cs cs' : List ConstructorDecl}
    (h : List.Forall₂ (fun c c' => c.same c' = true) cs cs') (t : Table Nat) :
    cs.foldl (fun t c => t.insert c.name c.fields.length) t =
      cs'.foldl (fun t c => t.insert c.name c.fields.length) t := by
  induction h generalizing t with
  | nil => rfl
  | cons hsame _ ih =>
    rw [ConstructorDecl.same, Bool.and_eq_true, decide_eq_true_eq, decide_eq_true_eq] at hsame
    rw [List.foldl_cons, List.foldl_cons, hsame.1, hsame.2, ih]

/-- Statements that are `same`, so equal apart from spans, declare the same. -/
theorem Declared.after_eq_of_same {s t : Stmt} (h : s.same t = true) (d : Declared) :
    d.after s = d.after t := by
  cases s with
  | data name constructors span =>
    cases t with
    | data name' constructors' span' =>
      rw [Stmt.same, Bool.and_assoc, Bool.and_eq_true, decide_eq_true_eq] at h
      obtain ⟨rfl, hconstructors⟩ := h
      rw [after, after, addConstructors, addConstructors,
        foldl_insert_eq_of_same (all_zip_iff.mp hconstructors)]
    | _ => cases h
  | _ => cases t with
    | data => cases h
    | _ => rfl

/-! ### Reading a statement back -/

/-- A form as which a constructor is declared reads as the constructor, by `OfSexp`. -/
theorem ConstructorDecl.readsAs {d : Declared} {c : ConstructorDecl}
    (hfields : ∀ ty ∈ c.fields, ty.Readable d) {e : Sexp} (he : e.form = c.form) :
    ∃ c', OfSexp d e c' ∧ c'.same c = true := by
  obtain ⟨headSpan, es, span, rfl, hes⟩ := Sexp.form_eq_headed.mp he
  have hwritten : Ty.OfSexps d es c.fields :=
    .of_forms hes fun ty hty _ he => Ty.OfSexp.of_form (hfields ty hty) he
  exact ⟨⟨c.name, c.fields, span⟩, .list hwritten, by simp [same]⟩

/-- The form reads as the statement, apart from spans. -/
def Stmt.ReadsAs (d : Declared) (e : Sexp) (s : Stmt) : Prop :=
  ∃ t d', outcome (Stmt.ofSexp e) d = (.ok t, d') ∧ t.same s = true

/-- Where two statements are read from one expression each, they are `same` if the expressions
are. -/
theorem Stmt.readsAs_of_one {d : Declared} {e a : Sexp} {f : Expr → Stmt} {s : Stmt} {x : Expr}
    (h : Stmt.ofSexp e = (Reading.withDeclared (Expr.ofSexp · a) >>= fun x => pure (f x)))
    (hsame : ∀ y, (f y).same s = y.same x) : Stmt.ReadsAs d e s ↔ Expr.ReadsAs d a x := by
  simp only [Stmt.ReadsAs, h, outcome_withDeclared_bind_eq_ok, outcome_pure]
  constructor
  · rintro ⟨t, d', ⟨y, hy, h⟩, ht⟩
    cases h
    exact ⟨y, hy, (hsame y).symm.trans ht⟩
  · rintro ⟨y, hy, hyx⟩
    exact ⟨f y, d, ⟨y, hy, rfl⟩, (hsame y).trans hyx⟩

/-- A form as which a `Readable` statement is written reads as the statement if and only if
everything in its expressions is clear. -/
theorem Stmt.readsAs_iff {d : Declared} {s : Stmt} (h : s.Readable d) {e : Sexp}
    (he : e.form = s.form) :
    Stmt.ReadsAs d e s ↔ ∀ x ∈ s.exprs, x.AllClear d.constructors.get? := by
  cases h with
  | @define name value span hatom hvalue =>
    obtain ⟨headSpan, es, span', rfl, hes⟩ := Sexp.form_eq_headed.mp he
    obtain ⟨n, rest, rfl, hn, hrest⟩ := List.map_eq_cons_iff.mp hes
    obtain ⟨nameSpan, rfl⟩ := Sexp.form_eq_atom.mp hn
    obtain ⟨a, rfl, ha⟩ := List.map_eq_singleton_iff.mp hrest
    rw [exprs, List.forall_mem_singleton, ← Expr.readsAs_iff hvalue ha]
    exact Stmt.readsAs_of_one (f := fun x => define name x span') rfl fun y => by simp [same]
  | @assign target value span htarget hvalue =>
    obtain ⟨headSpan, es, span', rfl, hes⟩ := Sexp.form_eq_headed.mp he
    obtain ⟨a, rest, rfl, ha, hrest⟩ := List.map_eq_cons_iff.mp hes
    obtain ⟨b, rfl, hb⟩ := List.map_eq_singleton_iff.mp hrest
    rw [exprs, List.forall_mem_cons, List.forall_mem_singleton, ← Expr.readsAs_iff htarget ha,
      ← Expr.readsAs_iff hvalue hb]
    have hread : Stmt.ofSexp (.list [.atom "assign" headSpan, a, b] span') =
        (Reading.withDeclared (Expr.ofSexp · a) >>= fun x =>
          Reading.withDeclared (Expr.ofSexp · b) >>= fun y => pure (.assign x y span')) :=
      rfl
    simp only [Stmt.ReadsAs, hread, outcome_withDeclared_bind_eq_ok, outcome_pure]
    constructor
    · rintro ⟨t, d', ⟨x, hx, y, hy, h⟩, hsame⟩
      cases h
      rw [same, Bool.and_eq_true] at hsame
      exact ⟨⟨x, hx, hsame.1⟩, y, hy, hsame.2⟩
    · rintro ⟨⟨x, hx, hxsame⟩, y, hy, hysame⟩
      exact ⟨_, d, ⟨x, hx, y, hy, rfl⟩, by rw [same, hxsame, hysame, Bool.and_self]⟩
  | @print value span hvalue =>
    obtain ⟨headSpan, es, span', rfl, hes⟩ := Sexp.form_eq_headed.mp he
    obtain ⟨a, rfl, ha⟩ := List.map_eq_singleton_iff.mp hes
    rw [exprs, List.forall_mem_singleton, ← Expr.readsAs_iff hvalue ha]
    exact Stmt.readsAs_of_one (f := fun x => print x span') rfl fun y => rfl
  | @data name constructors span hatom hnames hfields =>
    obtain ⟨headSpan, es, span', rfl, hes⟩ := Sexp.form_eq_headed.mp he
    obtain ⟨n, forms, rfl, hn, hforms⟩ := List.map_eq_cons_iff.mp hes
    obtain ⟨nameSpan, rfl⟩ := Sexp.form_eq_atom.mp hn
    -- every constructor is found again, after the type has been remembered
    have hone : ∀ c ∈ constructors, ∀ e : Sexp, e.form = c.form →
        ((∃ c', ConstructorDecl.OfSexp (d.addType name) e c' ∧ c'.same c = true) ↔ True) :=
      fun c hc e he => iff_of_true (ConstructorDecl.readsAs (hfields c hc) he) trivial
    obtain ⟨cs, hwritten, hsame⟩ := (exists_forall₂_iff hforms hone).mpr fun _ _ => trivial
    refine iff_of_true ⟨data name cs span', (d.addType name).addConstructors cs, ?_, ?_⟩ ?_
    · exact Stmt.outcome_ofSexp_eq_ok.mpr ⟨.data hwritten, rfl⟩
    · rw [same, Bool.and_assoc, all_zip_iff.mpr hsame]
      simp
    · simp [exprs]

/-! ### Reading a program back -/

/-- Forms as which the statements of a `Readable` program are written read as the program if and
only if everything in the expressions of each statement is clear, after the statements before it. -/
theorem Program.readsAs_iff {p : Program} {d : Declared} (h : p.Readable d) {es : List Sexp}
    (hes : es.map Sexp.form = p.map Stmt.form) :
    (∃ q d', outcome (es.mapM Stmt.ofSexp) d = (.ok q, d') ∧ Program.same q p = true) ↔
      ∀ before s after, p = before ++ s :: after →
        ∀ x ∈ s.exprs, x.AllClear (before.foldl Declared.after d).constructors.get? := by
  induction p generalizing d es with
  | nil =>
    obtain rfl := List.map_eq_nil_iff.mp hes
    refine iff_of_true ⟨[], d, rfl, rfl⟩ fun before s after hp => ?_
    exact absurd hp.symm (List.append_ne_nil_of_right_ne_nil _ (List.cons_ne_nil _ _))
  | cons s p ih =>
    obtain ⟨e, es, rfl, he, hes⟩ := List.map_eq_cons_iff.mp hes
    -- the first statement reads back, and the others do after what it declares
    have hsplit : (∃ q d', outcome ((e :: es).mapM Stmt.ofSexp) d = (.ok q, d') ∧
          Program.same q (s :: p) = true) ↔
        Stmt.ReadsAs d e s ∧ ∃ q d', outcome (es.mapM Stmt.ofSexp) (d.after s) = (.ok q, d') ∧
          Program.same q p = true := by
      simp only [outcome_mapM_cons_eq_ok, Program.same_iff_forall₂, Stmt.ReadsAs]
      constructor
      · rintro ⟨_, d', ⟨t, d₁, q, ht, hq, rfl⟩, hsame⟩
        obtain ⟨hts, hqp⟩ := List.forall₂_cons.mp hsame
        obtain ⟨-, rfl⟩ := Stmt.outcome_ofSexp_eq_ok.mp ht
        rw [Declared.after_eq_of_same hts] at hq
        exact ⟨⟨t, _, ht, hts⟩, q, d', hq, hqp⟩
      · rintro ⟨⟨t, d₁, ht, hts⟩, q, d', hq, hqp⟩
        obtain ⟨-, rfl⟩ := Stmt.outcome_ofSexp_eq_ok.mp ht
        rw [← Declared.after_eq_of_same hts] at hq
        exact ⟨t :: q, d', ⟨t, _, q, ht, hq, rfl⟩, .cons hts hqp⟩
    rw [hsplit, Stmt.readsAs_iff h.1 he, ih h.2 hes]
    constructor
    · rintro ⟨hfirst, hrest⟩ before t after hp
      rcases List.cons_eq_append_iff.mp hp with ⟨rfl, hp⟩ | ⟨before, rfl, hp⟩
      · cases hp
        exact hfirst
      · exact hrest before t after (List.cons.inj hp).2
    · intro hall
      exact ⟨hall [] s p rfl, fun before t after hp => hall (s :: before) t after (by rw [hp]; rfl)⟩

/-- A program that was read from a text and written reads as itself, apart from spans
(`Program.same`), if and only if everything in its expressions is `Clear` where it stands, with the
numbers of fields that the latest declarations before it give to the constructors
(`Program.arity?`). -/
theorem Program.reads_back_iff {file source : String} {p : Program}
    (h : parse file source = .ok p) (file' : String) :
    (∃ q, parse file' p.text = .ok q ∧ Program.same q p = true) ↔
      ∀ before s after, p = before ++ s :: after →
        ∀ e ∈ s.exprs, (∀ x ∈ e.parts, x.Clear (Program.arity? before)) ∧
          ∀ q ∈ e.patterns, q.Clear (Program.arity? before) := by
  have hreadable := Program.readable_of_parse h
  obtain ⟨es, hread, hes⟩ := read_of_spells hreadable.writes file'
  have harity (before : Program) :
      (before.foldl Declared.after {}).constructors.get? = Program.arity? before := by
    funext name
    rw [Program.get?_foldl_after]
    exact Option.or_none
  have hback := Program.readsAs_iff hreadable hes
  simp only [harity] at hback
  refine Iff.trans ?_ hback
  constructor
  · rintro ⟨q, hq, hsame⟩
    obtain ⟨es', d', hes', hq⟩ := parse_eq_ok.mp hq
    rw [hread] at hes'
    cases hes'
    exact ⟨q, d', hq, hsame⟩
  · rintro ⟨q, d', hq, hsame⟩
    exact ⟨q, parse_eq_ok.mpr ⟨es, d', hread, hq⟩, hsame⟩

/-- A constructor without fields that stands in parentheses is written without them, and reads as
the same constructor again as long as its name means it: `(C)` does, and the number `(7)` does
not. -/
theorem Program.reads_back_iff_nullary :
    ∃ p, parse "f" "(data T C (7)) (print (C)) (print (7))" = .ok p ∧
      ((∃ q, parse "g" p.text = .ok q ∧ Program.same q p = true) ↔
        ∀ before s after, p = before ++ s :: after →
          ∀ e ∈ s.exprs, (∀ x ∈ e.parts, x.Clear (Program.arity? before)) ∧
            ∀ q ∈ e.patterns, q.Clear (Program.arity? before)) := by
  have hparse : (parse "f" "(data T C (7)) (print (C)) (print (7))").toOption.isSome = true := by
    decide +kernel
  cases hp : parse "f" "(data T C (7)) (print (C)) (print (7))" with
  | error e => rw [hp] at hparse; cases hparse
  | ok p => exact ⟨p, rfl, Program.reads_back_iff hp "g"⟩

end Casewise
