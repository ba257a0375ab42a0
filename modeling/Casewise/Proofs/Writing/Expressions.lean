import Casewise.Proofs.Table
import Casewise.Proofs.Writing.Patterns

/-!
# Reading written expressions

An expression that has been read and written reads as itself again unless something in it loses the
parentheses that it needs: a constructor without fields whose name as an atom means something else,
or one that leads an application and would take the arguments as its fields. A number that leads an
application is written in digits, which must not be the name of a constructor. `Expr.Clear` rules
these out for one expression, and `Expr.AllClear` for everything in it.

## Main definitions

* `Expr.parts`, `Expr.patterns`: all expressions and all patterns in an expression.
* `Expr.children`, `Expr.ownPatterns`: the expressions and patterns that it is built from.
* `Expr.Clear`: whether the expression, written down, keeps its meaning at the top.

## Main statements

* `Expr.readsAs_iff`: a form as which an expression is written reads as the expression if and only
  if everything in it is clear.
-/

namespace Casewise

/-! ### What is in an expression -/

mutual

/-- The expression and all expressions in it. -/
def Expr.parts : Expr → List Expr
  | not operand span => not operand span :: parts operand
  | binary op left right span => binary op left right span :: (parts left ++ parts right)
  | cond condition thenBranch elseBranch span =>
    cond condition thenBranch elseBranch span ::
      (parts condition ++ (parts thenBranch ++ parts elseBranch))
  | lambda param paramTy body span => lambda param paramTy body span :: parts body
  | app head args span => app head args span :: (parts head ++ partsAll args)
  | pair first second span => pair first second span :: (parts first ++ parts second)
  | fst operand span => fst operand span :: parts operand
  | snd operand span => snd operand span :: parts operand
  | construct name args span => construct name args span :: partsAll args
  | cases scrutinee patterns branches span =>
    cases scrutinee patterns branches span :: (parts scrutinee ++ partsAll branches)
  | e => [e]

/-- The expressions and all expressions in them. -/
def Expr.partsAll : List Expr → List Expr
  | [] => []
  | e :: es => parts e ++ partsAll es

end

mutual

/-- All patterns in an expression. -/
def Expr.patterns : Expr → List Pattern
  | not operand _ => patterns operand
  | binary _ left right _ => patterns left ++ patterns right
  | cond condition thenBranch elseBranch _ =>
    patterns condition ++ (patterns thenBranch ++ patterns elseBranch)
  | lambda _ _ body _ => patterns body
  | app head args _ => patterns head ++ patternsAll args
  | pair first second _ => patterns first ++ patterns second
  | fst operand _ => patterns operand
  | snd operand _ => patterns operand
  | construct _ args _ => patternsAll args
  | cases scrutinee ps branches _ =>
    Pattern.partsAll ps ++ (patterns scrutinee ++ patternsAll branches)
  | _ => []

/-- All patterns in expressions. -/
def Expr.patternsAll : List Expr → List Pattern
  | [] => []
  | e :: es => patterns e ++ patternsAll es

end

/-- The expressions that an expression is built from. -/
def Expr.children : Expr → List Expr
  | not operand _ => [operand]
  | binary _ left right _ => [left, right]
  | cond condition thenBranch elseBranch _ => [condition, thenBranch, elseBranch]
  | lambda _ _ body _ => [body]
  | app head args _ => head :: args
  | pair first second _ => [first, second]
  | fst operand _ => [operand]
  | snd operand _ => [operand]
  | construct _ args _ => args
  | cases scrutinee _ branches _ => scrutinee :: branches
  | _ => []

/-- The patterns of the arms of an expression. -/
def Expr.ownPatterns : Expr → List Pattern
  | cases _ ps _ _ => ps
  | _ => []

/-- Where constructors have the numbers of fields `arity`: if the expression is a constructor
without fields, its name as an atom means that constructor; and what an application applies is no
constructor without fields, and no number that is written like the name of a constructor. -/
def Expr.Clear (arity : String → Option Nat) : Expr → Prop
  | construct name [] _ =>
    arity name = some 0 ∧ name ≠ "true" ∧ name ≠ "false" ∧
      ¬ ∀ c ∈ name.toList, Text.isDigit c = true
  | app (construct _ [] _) _ _ => False
  | app (number value _) _ _ => arity (toString value) = none
  | _ => True

namespace Expr

variable {arity : String → Option Nat}

/-- All expressions and all patterns in the expression are clear. -/
def AllClear (arity : String → Option Nat) (e : Expr) : Prop :=
  (∀ x ∈ e.parts, x.Clear arity) ∧ ∀ p ∈ e.patterns, p.Clear arity

theorem forall_mem_partsAll {es : List Expr} {motive : Expr → Prop} :
    (∀ x ∈ partsAll es, motive x) ↔ ∀ e ∈ es, ∀ x ∈ e.parts, motive x := by
  induction es with
  | nil => simp [partsAll]
  | cons e es ih => simp only [partsAll, List.forall_mem_append, List.forall_mem_cons, ih]

theorem forall_mem_patternsAll {es : List Expr} {motive : Pattern → Prop} :
    (∀ p ∈ patternsAll es, motive p) ↔ ∀ e ∈ es, ∀ p ∈ e.patterns, motive p := by
  induction es with
  | nil => simp [patternsAll]
  | cons e es ih => simp only [patternsAll, List.forall_mem_append, List.forall_mem_cons, ih]

/-- `AllClear` of several expressions. -/
theorem allClear_all {es : List Expr} :
    ((∀ x ∈ partsAll es, x.Clear arity) ∧ ∀ p ∈ patternsAll es, p.Clear arity) ↔
      ∀ e ∈ es, e.AllClear arity := by
  rw [forall_mem_partsAll, forall_mem_patternsAll]
  exact ⟨fun h e he => ⟨h.1 e he, h.2 e he⟩,
    fun h => ⟨fun e he => (h e he).1, fun e he => (h e he).2⟩⟩

theorem parts_eq (e : Expr) : e.parts = e :: partsAll e.children := by
  cases e <;> simp [parts, partsAll, children]

theorem patterns_eq (e : Expr) :
    e.patterns = Pattern.partsAll e.ownPatterns ++ patternsAll e.children := by
  cases e <;> simp [patterns, patternsAll, children, ownPatterns, Pattern.partsAll]

/-- `AllClear` holds of an expression if it is clear itself, the patterns of its arms are and
everything in its parts is. -/
theorem allClear_iff {e : Expr} :
    e.AllClear arity ↔
      e.Clear arity ∧ (∀ p ∈ e.ownPatterns, ∀ q ∈ p.parts, q.Clear arity) ∧
        ∀ c ∈ e.children, c.AllClear arity := by
  rw [AllClear, parts_eq, patterns_eq, List.forall_mem_cons, List.forall_mem_append,
    Pattern.forall_mem_partsAll, ← allClear_all]
  constructor
  · rintro ⟨⟨hclear, hparts⟩, hown, hpatterns⟩
    exact ⟨hclear, hown, hparts, hpatterns⟩
  · rintro ⟨hclear, hown, hparts, hpatterns⟩
    exact ⟨⟨hclear, hparts⟩, hown, hpatterns⟩

theorem allClear_iff_children {e : Expr} (hclear : e.Clear arity) (hown : e.ownPatterns = []) :
    e.AllClear arity ↔ ∀ c ∈ e.children, c.AllClear arity := by
  rw [allClear_iff, hown]
  simp [hclear]

/-- `AllClear` of an application. -/
theorem allClear_app {head : Expr} {args : List Expr} {span : Option Span} :
    (app head args span).AllClear arity ↔
      (app head args span).Clear arity ∧ head.AllClear arity ∧ ∀ e ∈ args, e.AllClear arity := by
  rw [allClear_iff]
  simp [children, ownPatterns]

/-- `AllClear` of what a constructor builds. -/
theorem allClear_construct {name : String} {args : List Expr} {span : Option Span} :
    (construct name args span).AllClear arity ↔
      (construct name args span).Clear arity ∧ ∀ e ∈ args, e.AllClear arity := by
  rw [allClear_iff]
  simp [children, ownPatterns]

/-- `AllClear` of a choice by patterns. -/
theorem allClear_cases {scrutinee : Expr} {ps : List Pattern} {branches : List Expr}
    {span : Option Span} :
    (cases scrutinee ps branches span).AllClear arity ↔
      (∀ p ∈ ps, ∀ q ∈ p.parts, q.Clear arity) ∧ scrutinee.AllClear arity ∧
        ∀ e ∈ branches, e.AllClear arity := by
  have hclear : (cases scrutinee ps branches span).Clear arity := trivial
  rw [allClear_iff]
  simp [hclear, children, ownPatterns]

/-! ### Reading as an expression -/

/-- The form reads as the expression, apart from spans. -/
def ReadsAs (d : Declared) (e : Sexp) (x : Expr) : Prop :=
  ∃ y, Expr.ofSexp d e = .ok y ∧ y.same x = true

/-- `sameAll` compares lists of expressions one by one. -/
theorem sameAll_iff_forall₂ {xs ys : List Expr} :
    sameAll xs ys = true ↔ List.Forall₂ (fun x y => x.same y = true) xs ys := by
  induction xs generalizing ys with
  | nil => cases ys <;> simp [sameAll]
  | cons x xs ih => cases ys <;> simp [sameAll, ih]

section Parts

variable {d : Declared} {e a b c : Sexp} {target x y z : Expr}

theorem readsAs_atom {text : String} (hdigits : d.exceeded? text = none) {span : Span} :
    ReadsAs d (.atom text span) target ↔ (ofAtom d text span).same target = true := by
  simp [ReadsAs, ofSexp, Declared.converted_eq_ok, hdigits]

/-- `ReadsAs` for a form that is read in one part. -/
theorem readsAs_of_one {f : Expr → Expr} (h : ofSexp d e = (ofSexp d a >>= fun x => .ok (f x)))
    (hsame : ∀ x', (f x').same target = x'.same x) : ReadsAs d e target ↔ ReadsAs d a x := by
  simp only [ReadsAs, h, bind_eq_ok]
  constructor
  · rintro ⟨y, ⟨x', hx', hy⟩, hytarget⟩
    cases hy
    exact ⟨x', hx', hsame x' ▸ hytarget⟩
  · rintro ⟨x', hx', hxx'⟩
    exact ⟨_, ⟨x', hx', rfl⟩, (hsame x').trans hxx'⟩

/-- `ReadsAs` for a form that is read in two parts. -/
theorem readsAs_of_two {f : Expr → Expr → Expr}
    (h : ofSexp d e = (ofSexp d a >>= fun x => ofSexp d b >>= fun y => .ok (f x y)))
    (hsame : ∀ x' y', (f x' y').same target = (x'.same x && y'.same y)) :
    ReadsAs d e target ↔ ReadsAs d a x ∧ ReadsAs d b y := by
  simp only [ReadsAs, h, bind_eq_ok]
  constructor
  · rintro ⟨_, ⟨x', hx', y', hy', h'⟩, htarget⟩
    cases h'
    rw [hsame, Bool.and_eq_true] at htarget
    exact ⟨⟨x', hx', htarget.1⟩, y', hy', htarget.2⟩
  · rintro ⟨⟨x', hx', hxx'⟩, y', hy', hyy'⟩
    exact ⟨_, ⟨x', hx', y', hy', rfl⟩, by rw [hsame, hxx', hyy', Bool.and_self]⟩

/-- `ReadsAs` for a form that is read in three parts. -/
theorem readsAs_of_three {f : Expr → Expr → Expr → Expr}
    (h : ofSexp d e = (ofSexp d a >>= fun x => ofSexp d b >>= fun y => ofSexp d c >>= fun z =>
      .ok (f x y z)))
    (hsame : ∀ x' y' z', (f x' y' z').same target = (x'.same x && y'.same y && z'.same z)) :
    ReadsAs d e target ↔ ReadsAs d a x ∧ ReadsAs d b y ∧ ReadsAs d c z := by
  simp only [ReadsAs, h, bind_eq_ok]
  constructor
  · rintro ⟨_, ⟨x', hx', y', hy', z', hz', h'⟩, htarget⟩
    cases h'
    rw [hsame, Bool.and_eq_true, Bool.and_eq_true] at htarget
    exact ⟨⟨x', hx', htarget.1.1⟩, ⟨y', hy', htarget.1.2⟩, z', hz', htarget.2⟩
  · rintro ⟨⟨x', hx', hxx'⟩, ⟨y', hy', hyy'⟩, z', hz', hzz'⟩
    exact ⟨_, ⟨x', hx', y', hy', z', hz', rfl⟩, by rw [hsame, hxx', hyy', hzz']; rfl⟩

/-- A list of two forms behind `pair` is read as the pair of the two. -/
theorem ofSexp_pair (d : Declared) (headSpan : Span) (first second : Sexp) (span : Span) :
    ofSexp d (.list [.atom "pair" headSpan, first, second] span) =
      (ofSexp d first >>= fun x => ofSexp d second >>= fun y => .ok (.pair x y span)) :=
  rfl

theorem ofSexp_of_construct {name : String} {head : Sexp} (hhead : Head.of d head = .construct name)
    (es : List Sexp) (span : Span) :
    ofSexp d (.list (head :: es) span) =
      (ofSexps d es >>= fun xs => .ok (.construct name xs span)) := by
  rw [ofSexp.eq_def]
  simp only [hhead]
  rfl

/-- `ReadsAs` for a list whose head is a constructor. -/
theorem readsAs_construct {name : String} {headSpan : Span}
    (hname : Head.of d (.atom name headSpan) = .construct name) {es : List Sexp} {span : Span}
    {args : List Expr} {span' : Option Span} :
    ReadsAs d (.list (.atom name headSpan :: es) span) (construct name args span') ↔
      ∃ xs, List.Forall₂ (fun e x => Expr.ofSexp d e = .ok x) es xs ∧
        List.Forall₂ (fun x y => x.same y = true) xs args := by
  simp only [ReadsAs, ofSexp_of_construct hname, bind_eq_ok, ofSexps_eq_ok]
  constructor
  · rintro ⟨_, ⟨xs, hxs, h⟩, hsame⟩
    cases h
    exact ⟨xs, hxs, sameAll_iff_forall₂.mp (by simpa [same] using hsame)⟩
  · rintro ⟨xs, hxs, hsame⟩
    exact ⟨_, ⟨xs, hxs, rfl⟩, by simpa [same] using sameAll_iff_forall₂.mpr hsame⟩

/-- `ReadsAs` for a list whose head is applied. -/
theorem readsAs_app {head : Sexp} (hhead : Head.of d head = .app) {es : List Sexp} {span : Span}
    {args : List Expr} {span' : Option Span} :
    ReadsAs d (.list (head :: es) span) (app x args span') ↔
      ReadsAs d head x ∧ ∃ xs, List.Forall₂ (fun e x => Expr.ofSexp d e = .ok x) es xs ∧
        List.Forall₂ (fun x y => x.same y = true) xs args := by
  have hread : ofSexp d (.list (head :: es) span) =
      (ofSexp d head >>= fun x => ofSexps d es >>= fun xs => .ok (.app x xs span)) := by
    rw [ofSexp.eq_def]
    simp only [hhead]
    rfl
  simp only [ReadsAs, hread, bind_eq_ok, ofSexps_eq_ok]
  constructor
  · rintro ⟨_, ⟨x', hx', xs, hxs, h⟩, hsame⟩
    cases h
    rw [same, Bool.and_eq_true] at hsame
    exact ⟨⟨x', hx', hsame.1⟩, xs, hxs, sameAll_iff_forall₂.mp hsame.2⟩
  · rintro ⟨⟨x', hx', hxx'⟩, xs, hxs, hsame⟩
    exact ⟨_, ⟨x', hx', xs, hxs, rfl⟩, by
      rw [same, hxx', sameAll_iff_forall₂.mpr hsame, Bool.and_self]⟩

/-- A list whose head is a constructor `ReadsAs` no application. -/
theorem not_readsAs_app {name : String} {head : Sexp} (hhead : Head.of d head = .construct name)
    {es : List Sexp} {span : Span} {args : List Expr} {span' : Option Span} :
    ¬ ReadsAs d (.list (head :: es) span) (app x args span') := by
  rintro ⟨y, hy, hsame⟩
  rw [ofSexp_of_construct hhead, bind_eq_ok] at hy
  obtain ⟨xs, -, h⟩ := hy
  cases h
  cases hsame

/-- `ReadsAs` for a match. -/
theorem readsAs_cases {headSpan armsSpan span : Span} {arms : List Sexp}
    (hlength : arms.length % 2 = 0)
    {ps : List Pattern} {branches : List Expr} {span' : Option Span} :
    ReadsAs d (.list [.atom "match" headSpan, a, .list arms armsSpan] span)
        (cases x ps branches span') ↔
      (∃ qs, List.Forall₂ (fun e q => Pattern.ofSexp d e = .ok q) (armPatterns arms) qs ∧
        List.Forall₂ (fun q p => q.same p = true) qs ps) ∧
      ReadsAs d a x ∧
      ∃ xs, List.Forall₂ (fun e x => Expr.ofSexp d e = .ok x) (armBranches arms) xs ∧
        List.Forall₂ (fun x y => x.same y = true) xs branches := by
  have hread : ofSexp d (.list [.atom "match" headSpan, a, .list arms armsSpan] span) =
      (Pattern.ofSexps d (armPatterns arms) >>= fun qs => ofArms d arms >>= fun xs =>
        ofSexp d a >>= fun x => .ok (.cases x qs xs span)) := by
    have hhead : Head.of d (.atom "match" headSpan) = .cases := by
      simp [Head.of, BinaryOp.ofSymbol?]
    rw [ofSexp.eq_def]
    simp only [hhead, hlength]
    rfl
  simp only [ReadsAs, hread, bind_eq_ok, Pattern.ofSexps_eq_ok, ofArms_eq_ofSexps,
    ofSexps_eq_ok]
  constructor
  · rintro ⟨_, ⟨qs, hqs, xs, hxs, x', hx', h⟩, hsame⟩
    cases h
    rw [same, Bool.and_eq_true, Bool.and_eq_true] at hsame
    exact ⟨⟨qs, hqs, Pattern.sameAll_iff_forall₂.mp hsame.1.2⟩, ⟨x', hx', hsame.1.1⟩, xs, hxs,
      sameAll_iff_forall₂.mp hsame.2⟩
  · rintro ⟨⟨qs, hqs, hqsame⟩, ⟨x', hx', hxx'⟩, xs, hxs, hsame⟩
    exact ⟨_, ⟨qs, hqs, xs, hxs, x', hx', rfl⟩, by
      rw [same, hxx', Pattern.sameAll_iff_forall₂.mpr hqsame, sameAll_iff_forall₂.mpr hsame]
      rfl⟩

end Parts

/-! ### Atoms and heads -/

theorem same_ofAtom (d : Declared) (text : String) (span span' : Option Span) :
    (ofAtom d text span).same (ofAtom d text span') = true := by
  simp only [ofAtom]
  split
  · rfl
  · split
    · rfl
    · split
      · simp [same]
      · split <;> simp [same, sameAll]

theorem ofAtom_of_decimal? {text : String} {n : Nat} (h : Text.decimal? text = some n)
    (d : Declared) (span : Option Span) : ofAtom d text span = number n span := by
  rw [ofAtom, if_neg (ne_of_decimal? h rfl), if_neg (ne_of_decimal? h rfl), h]

theorem ofAtom_toString (d : Declared) (n : Nat) (span : Option Span) :
    ofAtom d (toString n) span = number n span :=
  ofAtom_of_decimal? (Text.decimal?_toString n) d span

theorem ofAtom_truth (d : Declared) (value : Bool) (span : Option Span) :
    ofAtom d (if value then "true" else "false") span = boolean value span := by
  cases value <;> rfl

/-- `Expr.ofAtom` gives a constructor without fields if and only if the atom is the name of one and
nothing else. -/
theorem same_ofAtom_construct {d : Declared} {text : String} (h : IsAtom text)
    {span span' : Option Span} :
    (ofAtom d text span).same (construct text [] span') = true ↔
      (construct text [] span').Clear d.constructors.get? := by
  rw [Clear, ← decimal?_eq_none_iff h,
    ← decide_eq_true_iff (p := d.constructors.get? text = some 0)]
  change _ ↔ d.isNullary text = true ∧ _
  simp only [ofAtom]
  split
  · next htrue => simp [same, htrue]
  · next htrue =>
    split
    · next hfalse => simp [same, hfalse]
    · next hfalse =>
      split
      · next value hvalue => simp [same, hvalue]
      · next hvalue =>
        split
        · next hnullary => simp [same, sameAll, hvalue, htrue, hfalse, hnullary]
        · next hnullary => simp [same, hnullary]

/-- An atom `ReadsAs` a constructor without fields if it is the name of one and nothing else. -/
theorem readsAs_atom_construct {d : Declared} {text : String} (h : IsAtom text) {span : Span}
    {span' : Option Span} : ReadsAs d (.atom text span) (construct text [] span') ↔
      (construct text [] span').Clear d.constructors.get? := by
  by_cases hdigits : d.exceeded? text = none
  · rw [readsAs_atom hdigits, same_ofAtom_construct h]
  · refine iff_of_false ?_ fun hclear => ?_
    · rintro ⟨y, hy, -⟩
      exact hdigits (Declared.converted_eq_ok.mp hy).1
    · rw [Clear, ← decimal?_eq_none_iff h] at hclear
      exact hdigits (Declared.exceeded?_of_decimal?_eq_none (by tauto))

end Expr

/-- A number leads an application unless it is written like the name of a constructor, which then
leads instead: `Head.of` looks for constructors first. -/
theorem Head.of_toString (d : Declared) (n : Nat) (span : Span) :
    Head.of d (.atom (toString n) span) =
      if d.constructors.contains (toString n) then .construct (toString n) else .app := by
  have hne {text : String} (h : Text.decimal? text = none) : toString n ≠ text :=
    ne_toString_of_decimal? h n
  simp only [Head.of, BinaryOp.ofSymbol?]
  rw [if_neg (hne rfl), if_neg (hne rfl), if_neg (hne rfl), if_neg (hne rfl)]
  simp only
  rw [if_neg (hne rfl), if_neg (hne rfl), if_neg (hne rfl), if_neg (hne rfl), if_neg (hne rfl),
    if_neg (hne rfl), if_neg (hne rfl)]

theorem Head.of_list {d : Declared} {e : Sexp} {items : List Form} (he : e.form = .list items) :
    Head.of d e = .app := by
  obtain ⟨es, span, rfl, -⟩ := Sexp.form_eq_list.mp he
  rfl

namespace Expr

/-- What led an application when it was read leads one when it is written, or else a constructor
leads instead and the application is not `Clear`. -/
theorem head_of_leads {d : Declared} {head : Expr} (hhead : head.Readable d) (hlead : head.Leads d)
    {e : Sexp} (he : e.form = head.form) (args : List Expr) (span : Option Span) :
    Head.of d e = .app ∧ (app head args span).Clear d.constructors.get? ∨
      (∃ name, Head.of d e = .construct name) ∧
        ¬ (app head args span).Clear d.constructors.get? := by
  cases hhead with
  | var =>
    obtain ⟨span, rfl⟩ := Sexp.form_eq_atom.mp he
    exact .inl ⟨hlead span, trivial⟩
  | @number n _ _ =>
    obtain ⟨span, rfl⟩ := Sexp.form_eq_atom.mp he
    change Head.of d (.atom (toString n) span) = _ ∧ d.constructors.get? (toString n) = none ∨
      (∃ name, Head.of d (.atom (toString n) span) = _) ∧ ¬ d.constructors.get? (toString n) = none
    rw [Head.of_toString, ← Table.contains_eq_false]
    cases d.constructors.contains (toString n) <;> simp
  | boolean value =>
    obtain ⟨span, rfl⟩ := Sexp.form_eq_atom.mp he
    exact .inl ⟨hlead span, trivial⟩
  | @construct name args' =>
    cases args' with
    | nil =>
      obtain ⟨span, rfl⟩ := Sexp.form_eq_atom.mp he
      exact .inr ⟨⟨name, hlead span⟩, id⟩
    | cons => exact .inl ⟨Head.of_list he, trivial⟩
  | _ => exact .inl ⟨Head.of_list he, trivial⟩

/-- The arms of a match are found again. -/
theorem arms_of_interleave {arms : List Sexp} {ps bs : List Form}
    (h : arms.map Sexp.form = interleave ps bs) (hlength : ps.length = bs.length) :
    arms.length % 2 = 0 ∧ (armPatterns arms).map Sexp.form = ps ∧
      (armBranches arms).map Sexp.form = bs := by
  induction ps generalizing bs arms with
  | nil =>
    obtain rfl := List.length_eq_zero_iff.mp hlength.symm
    obtain rfl := List.map_eq_nil_iff.mp h
    exact ⟨rfl, rfl, rfl⟩
  | cons p ps ih =>
    cases bs with
    | nil => cases hlength
    | cons b bs =>
      obtain ⟨a, rest, rfl, ha, hrest⟩ := List.map_eq_cons_iff.mp h
      obtain ⟨a', rest, rfl, ha', hrest⟩ := List.map_eq_cons_iff.mp hrest
      obtain ⟨heven, hps, hbs⟩ := ih hrest (Nat.succ.inj hlength)
      refine ⟨?_, ?_, ?_⟩
      · rw [List.length_cons, List.length_cons]
        omega
      · rw [armPatterns, List.map_cons, ha, hps]
      · rw [armBranches, List.map_cons, ha', hbs]

/-- A form as which a readable expression is written `ReadsAs` the expression if and only if
everything in the expression is clear. -/
theorem readsAs_iff {d : Declared} {x : Expr} (h : x.Readable d) {e : Sexp}
    (he : e.form = x.form) : ReadsAs d e x ↔ x.AllClear d.constructors.get? := by
  induction h generalizing e with
  | @var name span hatom hself =>
    obtain ⟨span', rfl⟩ := Sexp.form_eq_atom.mp he
    have hsame := same_ofAtom d name span' span
    rw [hself] at hsame
    rw [readsAs_atom (Declared.exceeded?_of_decimal?_eq_none (of_ofAtom_eq_var hself).1)]
    simp [hsame, AllClear, parts, patterns, Clear]
  | @number n _ hdigits =>
    obtain ⟨span, rfl⟩ := Sexp.form_eq_atom.mp he
    change ReadsAs d (.atom (toString n) span) _ ↔ _
    rw [readsAs_atom hdigits, ofAtom_toString]
    simp [same, AllClear, parts, patterns, Clear]
  | boolean value =>
    obtain ⟨span, rfl⟩ := Sexp.form_eq_atom.mp he
    rw [readsAs_atom (Declared.exceeded?_truth value), ofAtom_truth]
    simp [same, AllClear, parts, patterns, Clear]
  | @not operand span hoperand ih =>
    obtain ⟨headSpan, es, span', rfl, hes⟩ := Sexp.form_eq_headed.mp he
    obtain ⟨a, rfl, ha⟩ := List.map_eq_singleton_iff.mp hes
    rw [allClear_iff_children (e := not operand span) trivial rfl, children,
      List.forall_mem_singleton, ← ih ha]
    exact readsAs_of_one (f := fun x => not x span') rfl fun _ => rfl
  | @fst operand span hoperand ih =>
    obtain ⟨headSpan, es, span', rfl, hes⟩ := Sexp.form_eq_headed.mp he
    obtain ⟨a, rfl, ha⟩ := List.map_eq_singleton_iff.mp hes
    rw [allClear_iff_children (e := fst operand span) trivial rfl, children,
      List.forall_mem_singleton, ← ih ha]
    exact readsAs_of_one (f := fun x => fst x span') rfl fun _ => rfl
  | @snd operand span hoperand ih =>
    obtain ⟨headSpan, es, span', rfl, hes⟩ := Sexp.form_eq_headed.mp he
    obtain ⟨a, rfl, ha⟩ := List.map_eq_singleton_iff.mp hes
    rw [allClear_iff_children (e := snd operand span) trivial rfl, children,
      List.forall_mem_singleton, ← ih ha]
    exact readsAs_of_one (f := fun x => snd x span') rfl fun _ => rfl
  | @pair first second span hfirst hsecond ih ih' =>
    obtain ⟨headSpan, es, span', rfl, hes⟩ := Sexp.form_eq_headed.mp he
    obtain ⟨a, rest, rfl, ha, hrest⟩ := List.map_eq_cons_iff.mp hes
    obtain ⟨b, rfl, hb⟩ := List.map_eq_singleton_iff.mp hrest
    rw [allClear_iff_children (e := pair first second span) trivial rfl, children,
      List.forall_mem_cons, List.forall_mem_singleton, ← ih ha, ← ih' hb]
    exact readsAs_of_two (f := fun x y => pair x y span') rfl fun _ _ => rfl
  | @binary op left right span hop hleft hright ih ih' =>
    obtain ⟨headSpan, es, span', rfl, hes⟩ := Sexp.form_eq_headed.mp he
    obtain ⟨a, rest, rfl, ha, hrest⟩ := List.map_eq_cons_iff.mp hes
    obtain ⟨b, rfl, hb⟩ := List.map_eq_singleton_iff.mp hrest
    rw [allClear_iff_children (e := binary op left right span) trivial rfl, children,
      List.forall_mem_cons, List.forall_mem_singleton, ← ih ha, ← ih' hb]
    refine readsAs_of_two (f := fun x y => binary op x y span') ?_ fun _ _ => by simp [same]
    have hhead : Head.of d (.atom op.symbol headSpan) = .binary op := by rw [Head.of, hop]
    rw [ofSexp.eq_def]
    simp only [hhead]
    rfl
  | @cond condition thenBranch elseBranch span hcondition hthen helse ih ih' ih'' =>
    obtain ⟨headSpan, es, span', rfl, hes⟩ := Sexp.form_eq_headed.mp he
    obtain ⟨a, rest, rfl, ha, hrest⟩ := List.map_eq_cons_iff.mp hes
    obtain ⟨b, rest, rfl, hb, hrest⟩ := List.map_eq_cons_iff.mp hrest
    obtain ⟨c, rfl, hc⟩ := List.map_eq_singleton_iff.mp hrest
    rw [allClear_iff_children (e := cond condition thenBranch elseBranch span) trivial rfl,
      children, List.forall_mem_cons, List.forall_mem_cons, List.forall_mem_singleton, ← ih ha,
      ← ih' hb, ← ih'' hc]
    exact readsAs_of_three (f := fun x y z => cond x y z span') rfl fun _ _ _ => rfl
  | @lambda param paramTy body span hatom hparamTy hbody ih =>
    obtain ⟨headSpan, es, span', rfl, hes⟩ := Sexp.form_eq_headed.mp he
    obtain ⟨p, rest, rfl, hp, hrest⟩ := List.map_eq_cons_iff.mp hes
    obtain ⟨paramSpan, rfl⟩ := Sexp.form_eq_atom.mp hp
    obtain ⟨ty, rest, rfl, hty, hrest⟩ := List.map_eq_cons_iff.mp hrest
    obtain ⟨a, rfl, ha⟩ := List.map_eq_singleton_iff.mp hrest
    rw [allClear_iff_children (e := lambda param paramTy body span) trivial rfl, children,
      List.forall_mem_singleton, ← ih ha]
    refine readsAs_of_one (f := fun x => lambda param paramTy x span') ?_ fun _ => by simp [same]
    have hread : ofSexp d (.list [.atom "lambda" headSpan, .atom param paramSpan, ty, a] span') =
        (Ty.ofSexp d ty >>= fun ty => ofSexp d a >>= fun x => .ok (.lambda param ty x span')) :=
      rfl
    rw [hread, (Ty.OfSexp.of_form hparamTy hty).ofSexp_eq]
    rfl
  | @app head args span hlead hhead hargs ih ihs =>
    obtain ⟨items, span', rfl, hitems⟩ := Sexp.form_eq_list.mp he
    obtain ⟨a, es, rfl, ha, hes⟩ := List.map_eq_cons_iff.mp hitems
    rw [forms_eq_map] at hes
    rw [allClear_app]
    rcases head_of_leads hhead hlead ha args span with ⟨happ, hclear⟩ | ⟨⟨name, hname⟩, hclear⟩
    · rw [readsAs_app happ, ih ha, exists_forall₂_iff hes fun x hx e he => ihs x hx he]
      exact (and_iff_right hclear).symm
    · exact iff_of_false (not_readsAs_app hname) fun h => hclear h.1
  | @construct name args span hatom hname hargs ihs =>
    rw [allClear_construct]
    cases args with
    | nil =>
      obtain ⟨span', rfl⟩ := Sexp.form_eq_atom.mp he
      rw [readsAs_atom_construct hatom]
      simp
    | cons arg args =>
      obtain ⟨headSpan, es, span', rfl, hes⟩ := Sexp.form_eq_headed.mp he
      have hhead : Head.of d (.atom name headSpan) = .construct name :=
        hname.elim (fun h => h headSpan) fun h => absurd h.1 (List.cons_ne_nil _ _)
      rw [forms_eq_map] at hes
      rw [readsAs_construct hhead, exists_forall₂_iff hes fun x hx e he => ihs x hx he]
      exact (and_iff_right trivial).symm
  | @cases scrutinee ps branches span hscrutinee hlength hpatterns hbranches ih ihs =>
    obtain ⟨headSpan, es, span', rfl, hes⟩ := Sexp.form_eq_headed.mp he
    obtain ⟨a, rest, rfl, ha, hrest⟩ := List.map_eq_cons_iff.mp hes
    obtain ⟨l, rfl, hl⟩ := List.map_eq_singleton_iff.mp hrest
    obtain ⟨arms, armsSpan, rfl, harms⟩ := Sexp.form_eq_list.mp hl
    rw [forms_eq_map] at harms
    obtain ⟨heven, hps, hbs⟩ := arms_of_interleave harms (by simpa using hlength)
    rw [readsAs_cases heven, allClear_cases, ← ih ha,
      exists_forall₂_iff hps fun p hp e he => Pattern.readsAs_iff (hpatterns p hp) he,
      exists_forall₂_iff hbs fun x hx e he => ihs x hx he]

end Expr

end Casewise
