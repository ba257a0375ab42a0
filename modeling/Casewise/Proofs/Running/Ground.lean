import Casewise.Proofs.Pattern.Instances
import Casewise.Proofs.Running.ReadBack
import Casewise.Proofs.Running.Root
import Casewise.Proofs.Typing.Tables

/-!
# Ground terms

A form without names, which is built from literals, pairs and declared constructors only, may stand
where an expression is expected and where a pattern is. The two are read by rules of their own,
which ask for the kind of an atom in different orders, and a string loses its quotes when it is read
as a pattern, but only when it is evaluated as an expression. Still both readings mean the same
value: the expression has this value, and the pattern fits this value and no other one. And where
the number of digits is limited, both fail over the same number that has too many of them.

For this, reading and the scopes must have seen the same data declarations, and no constructor may
be named like something that only one of the rules asks for before it asks for constructors.
Constructors that are named like a number or a truth value do no harm: as an atom, such a name is
the literal either way.

## Main definitions

* `Sexp.Ground`: forms that are built from literals, pairs and declared constructors.
* `Sexp.Means`, `Sexp.Exceeds`: how the readings of a form agree.
* `Declares`: what reading knows and the running machine, after the same data declarations.

## Main statements

* `Declares.arity`: reading and the root know the same constructors.
* `Sexp.Ground.reads_alike`: read as an expression and as a pattern, such a form means one value, or
  neither reading gets past a number with too many digits.
-/

namespace Casewise

/-! ### Ground forms -/

/-- The form is built from numbers, truth values, strings, pairs and declared constructors with as
many arguments as they have fields. -/
inductive Sexp.Ground (d : Declared) : Sexp → Prop
  | number {text : String} {n : ℕ} (span : Span) (h : Text.decimal? text = some n) :
    Ground d (.atom text span)
  | boolean (b : Bool) (span : Span) : Ground d (.atom (if b then "true" else "false") span)
  | string {text : String} (span : Span) (h : Text.isStringLiteral text = true) :
    Ground d (.atom text span)
  | pair {first second : Sexp} (headSpan span : Span) (hfirst : Ground d first)
    (hsecond : Ground d second) : Ground d (.list [.atom "pair" headSpan, first, second] span)
  | constant {name : String} (span : Span) (h : d.constructors.get? name = some 0) :
    Ground d (.atom name span)
  /-- A constructor with its arguments, also one without fields. -/
  | construct {name : String} {args : List Sexp} (headSpan span : Span)
    (h : d.constructors.get? name = some args.length) (hargs : ∀ e ∈ args, Ground d e) :
    Ground d (.list (.atom name headSpan :: args) span)

/-- The form means the value both ways: read as an expression it has this value, and read as a
pattern it fits this value and no other one. -/
def Sexp.Means (d : Declared) (f : Forest Value) (e : Sexp) (v : Value) : Prop :=
  ∃ x p, Expr.ofSexp d e = .ok x ∧ x.Recalls f v ∧ Pattern.ofSexp d e = .ok p ∧
    p.Exact (f.registry 0) v

/-- Neither reading of the form gets past a number in it, which has too many digits. -/
def Sexp.Exceeds (d : Declared) (e : Sexp) : Prop :=
  ∃ text limit, e.HasAtom text ∧ d.exceeded? text = some limit ∧
    Expr.ofSexp d e = .error (.overlong limit (Text.digitCount text)) ∧
    Pattern.ofSexp d e = .error (.overlong limit (Text.digitCount text))

/-! ### The same declarations -/

/-- Reading knows `d` and the machine is `m` after the same data declarations, each of which was
read and executed without an error, from the start. -/
inductive Declares : Declared → Machine → Prop
  | start (builtins recording : Bool) (maxDigits : Option ℕ) :
    Declares (Session.start builtins recording maxDigits).declared
      (Session.start builtins recording maxDigits).machine
  | data {d d' : Declared} {m m' : Machine} (h : Declares d m) {e : Sexp} {name : String}
    {constructors : List ConstructorDecl} {span : Option Span} {depth : ℕ}
    (hread : outcome (Stmt.ofSexp e) d = (.ok (.data name constructors span), d'))
    (hrun : outcome (Execute.stmt depth Machine.root (.data name constructors span)) m =
      (.ok (), m')) : Declares d' m'

namespace Declares

variable {d : Declared} {m : Machine}

theorem rooted (h : Declares d m) : m.scopes.Rooted := by
  induction h with
  | start builtins recording maxDigits => exact .newRoot _
  | @data d d' m m' h e name constructors span depth hread hrun ih =>
    rw [Execute.stmt, Run.located, outcome_adapt_eq_ok] at hrun
    have hrooted := Execute.rooted_data ih name constructors span
    rwa [show outcome (Execute.data 0 name constructors span) m = (.ok (), m') from hrun] at hrooted

/-- Under `Declares`, reading and the root know the same constructors, with as many fields. -/
theorem arity (h : Declares d m) (name : String) : d.constructors.get? name =
    ((m.scopes.registry Machine.root).constructor? name).map ConstructorInfo.arity := by
  induction h generalizing name with
  | start builtins recording maxDigits => rfl
  | @data d d' m m' h e own constructors span depth hread hrun ih =>
    obtain ⟨-, rfl⟩ := Stmt.outcome_ofSexp_eq_ok.mp hread
    exact TablesAgree.get?_after_data ih (Execute.adds_of_ok h.rooted hrun).declare_eq span name

/-- Under `Declares`, the root knows a constructor that reading knows, with as many fields. -/
theorem exists_constructor? (h : Declares d m) {name : String} {n : ℕ}
    (hname : d.constructors.get? name = some n) :
    ∃ info, (m.scopes.registry Machine.root).constructor? name = some info ∧ n = info.arity := by
  rw [h.arity name, Option.map_eq_some_iff] at hname
  obtain ⟨info, hinfo, rfl⟩ := hname
  exact ⟨info, hinfo, rfl⟩

end Declares

/-! ### Atoms -/

namespace Sexp.Means

variable {d : Declared} {f : Forest Value}

/-- A number that has not too many digits `Means` itself. -/
theorem number {text : String} {n : ℕ} (h : Text.decimal? text = some n)
    (hdigits : d.exceeded? text = none) (span : Span) :
    (Sexp.atom text span).Means d f (.number n) :=
  ⟨.number n span, .number n span,
    Declared.converted_eq_ok.mpr ⟨hdigits, Expr.ofAtom_of_decimal? h d span⟩, .of_step (.pure rfl),
    Declared.converted_eq_ok.mpr ⟨hdigits, Pattern.ofAtom_of_decimal? h d.isNullary span⟩,
    .number n span⟩

/-- A truth value `Means` itself. -/
theorem boolean (b : Bool) (span : Span) :
    (Sexp.atom (if b then "true" else "false") span).Means d f (.boolean b) := by
  have hdigits := Declared.exceeded?_truth (d := d) b
  exact ⟨.boolean b span, .boolean b span,
    Declared.converted_eq_ok.mpr ⟨hdigits, Expr.ofAtom_truth d b span⟩, .of_step (.pure rfl),
    Declared.converted_eq_ok.mpr ⟨hdigits, Pattern.ofAtom_truth d.isNullary b span⟩,
    .boolean b span⟩

/-- A string `Means` what stands between its quotes, unless its text is a name that is bound or a
constructor. -/
theorem string (hf : f.Rooted) {text : String} (h : Text.isStringLiteral text = true)
    (hnullary : d.isNullary text = false) (hname : (f.bindings 0).get? text = none) (span : Span) :
    (Sexp.atom text span).Means d f (.string (Text.unquoted text)) := by
  have hquoted := Text.isQuoted_of_isStringLiteral h
  have hdigits : d.exceeded? text = none :=
    Declared.exceeded?_of_decimal?_eq_none (Text.decimal?_of_isQuoted hquoted)
  have hpattern := Pattern.ofAtom_of_isStringLiteral h d.isNullary (some span)
  exact ⟨.var text span, .string (Text.unquoted text) span,
    Declared.converted_eq_ok.mpr ⟨hdigits, Expr.ofAtom_of_isQuoted hquoted hnullary span⟩,
    .quoted hf hquoted hname span,
    Declared.converted_eq_ok.mpr ⟨hdigits, hpattern⟩, .string _ span⟩

/-- The name of a constructor without fields `Means` what the constructor builds, unless it is the
name of a literal, which it then means both ways. -/
theorem exists_of_constant {name : String} (hdigits : d.exceeded? name = none)
    (hnullary : d.isNullary name = true) (hwild : name ≠ "_")
    (hquoted : Text.isQuoted name = false) {info : ConstructorInfo}
    (hinfo : (f.registry 0).constructor? name = some info) (harity : 0 = info.arity)
    (span : Span) : ∃ v, (Sexp.atom name span).Means d f v := by
  -- the rules ask for numbers and truth values in different orders, but nothing is both
  by_cases htrue : name = "true"
  · exact ⟨_, htrue ▸ boolean true span⟩
  by_cases hfalse : name = "false"
  · exact ⟨_, hfalse ▸ boolean false span⟩
  cases hdecimal : Text.decimal? name with
  | some n => exact ⟨_, number hdecimal hdigits span⟩
  | none =>
    have hstring : ¬ Text.isStringLiteral name = true := fun h =>
      Text.ne_of_isQuoted (Text.isQuoted_of_isStringLiteral h) hquoted rfl
    have hexpr : Expr.ofAtom d name span = .construct name [] span := by
      rw [Expr.ofAtom, if_neg htrue, if_neg hfalse, hdecimal, hnullary]
      rfl
    have hpattern : Pattern.ofAtom d.isNullary name span = .construct name [] span := by
      rw [Pattern.ofAtom, if_neg hwild, hdecimal]
      dsimp only
      rw [if_neg htrue, if_neg hfalse, if_neg hstring, if_pos hnullary]
    have hlength : ([] : List Value).length = info.arity := harity
    exact ⟨.constructed name [], .construct name [] span, .construct name [] span,
      Declared.converted_eq_ok.mpr ⟨hdigits, hexpr⟩, .construct hinfo hlength .nil span,
      Declared.converted_eq_ok.mpr ⟨hdigits, hpattern⟩, .construct hinfo hlength .nil span⟩

/-! ### Lists -/

/-- A pair of forms `Means` the pair of what they mean. -/
theorem pair {first second : Sexp} {a b : Value} (hfirst : first.Means d f a)
    (hsecond : second.Means d f b) (headSpan span : Span) :
    (Sexp.list [.atom "pair" headSpan, first, second] span).Means d f (.pair a b) := by
  obtain ⟨x, p, hx, hxa, hp, hpa⟩ := hfirst
  obtain ⟨y, q, hy, hyb, hq, hqb⟩ := hsecond
  refine ⟨.pair x y span, .pair p q span, ?_, hxa.pair hyb span, ?_, hpa.pair hqb span⟩
  · rw [Expr.ofSexp_pair, hx, hy]
    rfl
  · exact Pattern.ofSexp_list_eq_ok.mpr ⟨[p, q], .cons hp (.cons hq .nil), rfl⟩

/-- Forms each of which `Means` a value are read one by one. -/
theorem exists_forall₂ {es : List Sexp} (h : ∀ e ∈ es, ∃ v : Value, e.Means d f v) :
    ∃ xs ps vs, Expr.ofSexps d es = .ok xs ∧ List.Forall₂ (Expr.Recalls f) xs vs ∧
      List.Forall₂ (fun e p => Pattern.ofSexp d e = .ok p) es ps ∧
      List.Forall₂ (Pattern.Exact (f.registry 0)) ps vs := by
  simp only [Expr.ofSexps_eq_ok]
  induction es with
  | nil => exact ⟨[], [], [], .nil, .nil, .nil, .nil⟩
  | cons e es ih =>
    obtain ⟨⟨v, x, p, hx, hxv, hp, hpv⟩, hes⟩ := List.forall_mem_cons.mp h
    obtain ⟨xs, ps, vs, hxs, hxvs, hps, hpvs⟩ := ih hes
    exact ⟨x :: xs, p :: ps, v :: vs, .cons hx hxs, .cons hxv hxvs, .cons hp hps, .cons hpv hpvs⟩

/-- A constructor with arguments `Means` what it builds from what the arguments mean. -/
theorem exists_of_construct {name : String} (hname : name ∉ Head.reserved) {args : List Sexp}
    (hcontains : d.constructors.contains name = true) {info : ConstructorInfo}
    (hinfo : (f.registry 0).constructor? name = some info) (harity : args.length = info.arity)
    (hargs : ∀ e ∈ args, ∃ v : Value, e.Means d f v) (headSpan span : Span) :
    ∃ v, (Sexp.list (.atom name headSpan :: args) span).Means d f v := by
  obtain ⟨xs, ps, vs, hxs, hxvs, hps, hpvs⟩ := exists_forall₂ hargs
  have hlength : vs.length = info.arity := by
    rw [← hpvs.length_eq, ← hps.length_eq, harity]
  have hpair : name ≠ "pair" := fun h => hname (h ▸ by decide)
  refine ⟨.constructed name vs, .construct name xs span, .construct name ps span, ?_,
    .construct hinfo hlength hxvs span, ?_, .construct hinfo hlength hpvs span⟩
  · rw [Expr.ofSexp_of_construct (Head.of_constructor hname hcontains headSpan), hxs]
    rfl
  · exact Pattern.ofSexp_list_eq_ok.mpr ⟨ps, hps, Pattern.structured_eq_ok.mpr (.inr ⟨hpair, rfl⟩)⟩

end Sexp.Means

/-! ### Numbers with too many digits -/

namespace Sexp

variable {d : Declared} {f : Forest Value}

theorem exceeds_atom {text : String} {limit : ℕ} (h : d.exceeded? text = some limit) (span : Span) :
    (Sexp.atom text span).Exceeds d :=
  ⟨text, limit, .atom span, h, Expr.ofSexp_of_exceeded h span, Pattern.ofSexp_of_exceeded h span⟩

/-- Read one by one, forms of which one `Exceeds` fail both ways over the first number that has too
many digits. -/
theorem exists_error_of_exceeds {es : List Sexp}
    (h : ∀ e ∈ es, (∃ v : Value, e.Means d f v) ∨ e.Exceeds d) :
    (∀ e ∈ es, ∃ v : Value, e.Means d f v) ∨
    ∃ text limit, (∃ e ∈ es, e.HasAtom text) ∧ d.exceeded? text = some limit ∧
      Expr.ofSexps d es = .error (.overlong limit (Text.digitCount text)) ∧
      Pattern.ofSexps d es = .error (.overlong limit (Text.digitCount text)) := by
  induction es with
  | nil => exact .inl fun e he => absurd he List.not_mem_nil
  | cons e es ih =>
    obtain ⟨he, hes⟩ := List.forall_mem_cons.mp h
    rcases he with ⟨v, x, p, hx, hxv, hp, hpv⟩ | ⟨text, limit, htext, hlimit, hx, hp⟩
    · rcases ih hes with hmeans | ⟨text, limit, ⟨e', he', htext⟩, hlimit, hxs, hps⟩
      · exact .inl (List.forall_mem_cons.mpr ⟨⟨v, x, p, hx, hxv, hp, hpv⟩, hmeans⟩)
      · refine .inr ⟨text, limit, ⟨e', List.mem_cons_of_mem e he', htext⟩, hlimit, ?_, ?_⟩
        · rw [Expr.ofSexps, hx, hxs]
          rfl
        · rw [Pattern.ofSexps, hp, hps]
          rfl
    · refine .inr ⟨text, limit, ⟨e, List.mem_cons_self, htext⟩, hlimit, ?_, ?_⟩
      · rw [Expr.ofSexps, hx]
        rfl
      · rw [Pattern.ofSexps, hp]
        rfl

/-- A list whose arguments are not read `Exceeds` as they do, if its head says that it is a pair or
builds data. -/
theorem exceeds_list {head : String} {headSpan : Span} {args : List Sexp} {text : String}
    {limit : ℕ} (htext : ∃ e ∈ args, e.HasAtom text) (hlimit : d.exceeded? text = some limit)
    {span : Span}
    (hexpr : Expr.ofSexp d (.list (.atom head headSpan :: args) span) =
      .error (.overlong limit (Text.digitCount text)))
    (hps : Pattern.ofSexps d args = .error (.overlong limit (Text.digitCount text))) :
    (Sexp.list (.atom head headSpan :: args) span).Exceeds d := by
  obtain ⟨e, he, htext⟩ := htext
  refine ⟨text, limit, .list span (List.mem_cons_of_mem _ he) htext, hlimit, hexpr, ?_⟩
  rw [Pattern.ofSexp, hps]
  rfl

/-- A pair is not read if its components are not. -/
theorem ofSexp_pair_of_error {first second : Sexp} {e : Failure}
    (h : Expr.ofSexps d [first, second] = .error e) (headSpan span : Span) :
    Expr.ofSexp d (.list [.atom "pair" headSpan, first, second] span) = .error e := by
  rw [Expr.ofSexp_pair]
  rw [Expr.ofSexps] at h
  cases hfirst : Expr.ofSexp d first with
  | error e' =>
    rw [hfirst] at h
    cases h
    rfl
  | ok x =>
    rw [hfirst] at h
    cases hsecond : Expr.ofSexp d second with
    | error e' =>
      rw [Expr.ofSexps, hsecond] at h
      cases h
      rfl
    | ok y =>
      rw [Expr.ofSexps, hsecond] at h
      cases h

end Sexp

/-! ### Whole forms -/

namespace Sexp.Ground

variable {d : Declared} {m : Machine} {e : Sexp}

/-- A `Ground` form `Means` a value, if no name is in the way, or it `Exceeds`. -/
theorem exists_means_or_exceeds (he : e.Ground d) (hm : Declares d m)
    (hnames : ∀ name, d.constructors.contains name = true →
      name ≠ "_" ∧ name ∉ Head.reserved ∧ Text.isQuoted name = false)
    (hquoted : ∀ name ∈ (m.scopes.bindings Machine.root).names, Text.isQuoted name = false) :
    (∃ v, e.Means d m.scopes v) ∨ e.Exceeds d := by
  have hcontains {name : String} {n : ℕ} (h : d.constructors.get? name = some n) :
      d.constructors.contains name = true := by
    rw [Table.contains, h]
    rfl
  induction he with
  | @number text n span h =>
    cases hdigits : d.exceeded? text with
    | none => exact .inl ⟨_, .number h hdigits span⟩
    | some limit => exact .inr (exceeds_atom hdigits span)
  | boolean b span => exact .inl ⟨_, .boolean b span⟩
  | @string text span h =>
    have htext := Text.isQuoted_of_isStringLiteral h
    -- as an expression the string is a name, which must neither be a constructor nor be bound
    have hnullary : d.isNullary text = false := by
      by_contra hne
      have hfound : d.constructors.get? text = some 0 := by simpa [Declared.isNullary] using hne
      obtain ⟨-, -, hfree⟩ := hnames text (hcontains hfound)
      exact Text.ne_of_isQuoted htext hfree rfl
    have hunbound : (m.scopes.bindings 0).get? text = none :=
      Table.get?_eq_none_iff.mpr fun hmem => Text.ne_of_isQuoted htext (hquoted text hmem) rfl
    exact .inl ⟨_, .string hm.rooted h hnullary hunbound span⟩
  | @pair first second headSpan span _ _ ihfirst ihsecond =>
    have hargs : ∀ e ∈ [first, second], (∃ v, e.Means d m.scopes v) ∨ e.Exceeds d :=
      List.forall_mem_cons.mpr ⟨ihfirst, List.forall_mem_singleton.mpr ihsecond⟩
    rcases exists_error_of_exceeds hargs with hmeans | ⟨text, limit, htext, hlimit, hxs, hps⟩
    · obtain ⟨a, ha⟩ := hmeans first (by simp)
      obtain ⟨b, hb⟩ := hmeans second (by simp)
      exact .inl ⟨_, ha.pair hb headSpan span⟩
    · exact .inr (exceeds_list htext hlimit (ofSexp_pair_of_error hxs headSpan span) hps)
  | @constant name span h =>
    obtain ⟨info, hinfo, harity⟩ := hm.exists_constructor? h
    obtain ⟨hwild, -, hfree⟩ := hnames name (hcontains h)
    cases hdigits : d.exceeded? name with
    | none =>
      exact .inl (Means.exists_of_constant hdigits (decide_eq_true h) hwild hfree hinfo harity span)
    | some limit => exact .inr (exceeds_atom hdigits span)
  | @construct name args headSpan span h _ ih =>
    obtain ⟨info, hinfo, harity⟩ := hm.exists_constructor? h
    obtain ⟨-, hname, -⟩ := hnames name (hcontains h)
    have hhead := Head.of_constructor hname (hcontains h) headSpan
    rcases exists_error_of_exceeds ih with hmeans | ⟨text, limit, htext, hlimit, hxs, hps⟩
    · exact .inl
        (Means.exists_of_construct hname (hcontains h) hinfo harity hmeans headSpan span)
    · refine .inr (exceeds_list htext hlimit ?_ hps)
      rw [Expr.ofSexp_of_construct hhead, hxs]
      rfl

/-- An atom, wherever it stands. -/
private def leaf (text : String) : Sexp :=
  .atom text default

/-- A list, wherever it stands. -/
private def node (items : List Sexp) : Sexp :=
  .list items default

/-- A declaration of lists. -/
private def listForm : Sexp :=
  node [leaf "data", leaf "List", leaf "Nil", node [leaf "Cons", leaf "Nat", leaf "List"]]

/-- What reading knows after the declaration of lists. -/
private def listsDeclared : Declared :=
  (outcome (Stmt.ofSexp listForm) {}).2

/-- A list of a number in the digits of another script, with leading zeros, beside a string with
quotes in it. -/
private def groundTerm : Sexp :=
  node [leaf "pair", node [leaf "Cons", leaf "٠٠٧", node [leaf "Nil"]], leaf "\"say \\\"hi\\\"\""]

private theorem ground_groundTerm : groundTerm.Ground listsDeclared := by
  have hnumber : Ground listsDeclared (leaf "٠٠٧") := .number (n := 7) default rfl
  have hnil : Ground listsDeclared (node [leaf "Nil"]) := .construct default default rfl nofun
  have hstring : Ground listsDeclared (leaf "\"say \\\"hi\\\"\"") := .string default rfl
  have hcons : Ground listsDeclared (node [leaf "Cons", leaf "٠٠٧", node [leaf "Nil"]]) :=
    .construct default default rfl
      (List.forall_mem_cons.mpr ⟨hnumber, List.forall_mem_singleton.mpr hnil⟩)
  exact .pair default default hcons hstring

end Sexp.Ground

end Casewise
