import Casewise.Proofs.Reading.Rules
import Casewise.Proofs.Sexp.Form
import Casewise.Proofs.Text.Decimal

/-!
# What reading yields

Not every type, pattern and expression is read from a text. `Ty.Readable`, `Pattern.Readable` and
`Expr.Readable` list what is true of those that are, after given declarations: names are atoms and
mean nothing else where they stand, numbers are not negative, operators are known, patterns and
branches pair up, and what is built from a form with a head is what the head says.

## Main statements

* `Ty.OfSexp.readable`, `Pattern.OfSexp.readable`, `Expr.OfSexp.readable`: whatever a form writes is
  readable.
-/

namespace Casewise

variable {d : Declared}

/-! ### Types -/

/-- What is true of types read after the declarations `d`. -/
inductive Ty.Readable (d : Declared) : Ty → Prop
  /-- A built-in type goes by its own name. -/
  | prim {name : String} (h : Ty.builtin? name = some (.prim name)) : Readable d (.prim name)
  | arrow {inputs : List Ty} {output : Ty} (hne : inputs ≠ [])
    (hinputs : ∀ ty ∈ inputs, Readable d ty) (houtput : Readable d output) :
    Readable d (.arrow inputs output)
  | pair {first second : Ty} (hfirst : Readable d first) (hsecond : Readable d second) :
    Readable d (.pair first second)
  /-- A data type is declared and has no built-in name. -/
  | data {name : String} (hatom : IsAtom name) (hbuiltin : Ty.builtin? name = none)
    (hmem : name ∈ d.dataTypes) : Readable d (.data name)

/-- `Ty.builtin?` finds a type under its own name. -/
theorem Ty.eq_prim_of_builtin? {name : String} {ty : Ty} (h : Ty.builtin? name = some ty) :
    ty = .prim name := by
  simp only [Ty.builtin?] at h
  split at h
  · next hname => rw [hname]; cases h; rfl
  · split at h
    · next hname => rw [hname]; cases h; rfl
    · split at h
      · next hname => rw [hname]; cases h; rfl
      · cases h

theorem Sexp.isReadable_of_mem {items : List Sexp} {span : Span}
    (h : (Sexp.list items span).form.IsReadable) : ∀ e ∈ items, e.form.IsReadable := by
  rwa [Sexp.form, Form.IsReadable, Form.allReadable_iff, Sexp.forms_eq_map,
    List.forall_mem_map] at h

mutual

/-- Whatever type a form writes is readable. -/
theorem Ty.OfSexp.readable : ∀ {e : Sexp} {ty : Ty}, OfSexp d e ty → e.form.IsReadable →
    ty.Readable d
  | _, _, .builtin h, _ => by
    obtain rfl := Ty.eq_prim_of_builtin? h
    exact .prim h
  | _, _, .data hbuiltin hmem, he => .data he hbuiltin hmem
  | _, _, .arrow hne hargs, he => by
    have hitems := Sexp.isReadable_of_mem he
    have hreadable := hargs.readable fun e he => hitems e (List.mem_cons_of_mem _ he)
    obtain ⟨hinputs, houtput⟩ := List.forall_mem_append.mp hreadable
    exact .arrow hne hinputs (houtput _ List.mem_cons_self)
  | _, _, .pair hfirst hsecond, he => by
    have hitems := Sexp.isReadable_of_mem he
    exact .pair (hfirst.readable (hitems _ (by simp))) (hsecond.readable (hitems _ (by simp)))

theorem Ty.OfSexps.readable : ∀ {es : List Sexp} {tys : List Ty}, OfSexps d es tys →
    (∀ e ∈ es, e.form.IsReadable) → ∀ ty ∈ tys, ty.Readable d
  | _, _, .nil, _ => List.forall_mem_nil _
  | _, _, .cons h hs, hes =>
    have ⟨he, hes⟩ := List.forall_mem_cons.mp hes
    List.forall_mem_cons.mpr ⟨h.readable he, hs.readable hes⟩

end

/-! ### Patterns -/

/-- What is true of patterns read after the declarations `d`. -/
inductive Pattern.Readable (d : Declared) : Pattern → Prop
  | wildcard (span : Option Span) : Readable d (.wildcard span)
  /-- A name is an atom that means nothing else. -/
  | binding {name : String} {span : Option Span} (hatom : IsAtom name)
    (h : Pattern.ofAtom d.isNullary name span = .binding name span) : Readable d
    (.binding name span)
  /-- A number is not negative, and has not too many digits. -/
  | number {n : Nat} {span : Option Span} (hdigits : d.exceeded? (toString n) = none) :
    Readable d (.number n span)
  | boolean (value : Bool) (span : Option Span) : Readable d (.boolean value span)
  /-- A string is an atom between its quotes. -/
  | string {value : String} {span : Option Span} (hatom : IsAtom ("\"" ++ value ++ "\"")) :
    Readable d (.string value span)
  /-- A constructor is an atom, and its arguments are no pair. -/
  | construct {name : String} {args : List Pattern} {span : Option Span} (hatom : IsAtom name)
    (hname : args ≠ [] → name ≠ "pair") (hargs : ∀ p ∈ args, Readable d p) :
    Readable d (.construct name args span)
  | pair {first second : Pattern} {span : Option Span} (hfirst : Readable d first)
    (hsecond : Readable d second) : Readable d (.pair first second span)

/-- A string literal is its `Text.unquoted` text, with quotes around it. -/
theorem Text.quoted_unquoted {text : String} (h : Text.isStringLiteral text = true) :
    "\"" ++ Text.unquoted text ++ "\"" = text := by
  rw [Text.isStringLiteral] at h
  split at h
  · next rest htext =>
    rw [decide_eq_true_eq] at h
    obtain ⟨ys, hys⟩ := List.getLast?_eq_some_iff.mp h
    rw [← String.toList_inj, Text.unquoted, htext, hys]
    simp
  · cases h

/-- A name that `Pattern.ofAtom` binds is no word, no number, no string and no constructor without
fields. -/
theorem Pattern.of_ofAtom_eq_binding {nullary : String → Bool} {name : String} {span : Option Span}
    (h : Pattern.ofAtom nullary name span = .binding name span) :
    name ≠ "_" ∧ name ≠ "true" ∧ name ≠ "false" ∧ Text.decimal? name = none ∧
      Text.isStringLiteral name = false ∧ nullary name = false := by
  rw [Pattern.ofAtom] at h
  split at h
  · cases h
  · next hwild =>
    split at h
    · cases h
    · next hdecimal =>
      split at h
      · cases h
      · next htrue =>
        split at h
        · cases h
        · next hfalse =>
          split at h
          · cases h
          · next hstring =>
            split at h
            · cases h
            · next hnullary =>
              exact ⟨hwild, htrue, hfalse, hdecimal, Bool.eq_false_iff.mpr hstring,
                Bool.eq_false_iff.mpr hnullary⟩

/-- Whatever pattern an atom writes is readable. -/
theorem Pattern.readable_ofAtom {d : Declared} {text : String} (h : IsAtom text)
    (hdigits : d.exceeded? text = none) (span : Option Span) :
    (Pattern.ofAtom d.isNullary text span).Readable d := by
  rw [Pattern.ofAtom]
  split
  · exact .wildcard span
  · next hwild =>
    split
    · next value hvalue => exact .number (Declared.exceeded?_toString hvalue hdigits)
    · next hvalue =>
      split
      · exact .boolean true span
      · next htrue =>
        split
        · exact .boolean false span
        · next hfalse =>
          split
          · next hstring => exact .string (by rwa [Text.quoted_unquoted hstring])
          · next hstring =>
            split
            · exact .construct h (fun hne => absurd rfl hne) (by simp)
            · next hnullary =>
              refine .binding h ?_
              simp only [Pattern.ofAtom, hwild, hvalue, htrue, hfalse, hstring, hnullary,
                Bool.false_eq_true, if_false]

mutual

/-- Whatever pattern a form writes is readable. -/
theorem Pattern.OfSexp.readable : ∀ {e : Sexp} {p : Pattern}, OfSexp d e p → e.form.IsReadable →
    p.Readable d
  | _, _, .atom hdigits, he => Pattern.readable_ofAtom he hdigits _
  | _, _, .pair hfirst hsecond, he => by
    have hitems := Sexp.isReadable_of_mem he
    exact .pair (hfirst.readable (hitems _ (by simp))) (hsecond.readable (hitems _ (by simp)))
  | _, _, .construct hname hargs, he => by
    have hitems := Sexp.isReadable_of_mem he
    exact .construct (hitems _ List.mem_cons_self) (fun _ => hname)
      (hargs.readable fun e he => hitems e (List.mem_cons_of_mem _ he))

theorem Pattern.OfSexps.readable : ∀ {es : List Sexp} {ps : List Pattern}, OfSexps d es ps →
    (∀ e ∈ es, e.form.IsReadable) → ∀ p ∈ ps, p.Readable d
  | _, _, .nil, _ => List.forall_mem_nil _
  | _, _, .cons h hs, hes =>
    have ⟨he, hes⟩ := List.forall_mem_cons.mp hes
    List.forall_mem_cons.mpr ⟨h.readable he, hs.readable hes⟩

end

/-! ### Heads -/

theorem BinaryOp.symbol_of_ofSymbol? {symbol : String} {op : BinaryOp}
    (h : BinaryOp.ofSymbol? symbol = some op) : op.symbol = symbol := by
  simp only [BinaryOp.ofSymbol?] at h
  grind [BinaryOp.symbol]

/-- A list whose `Head` builds data starts with the constructor. -/
theorem Head.eq_atom_of_construct {d : Declared} {e : Sexp} {name : String}
    (h : Head.of d e = .construct name) : ∃ span, e = .atom name span := by
  cases e with
  | list => cases h
  | atom text span =>
    refine ⟨span, ?_⟩
    simp only [Head.of] at h
    split at h
    · cases h
    · grind

/-- A list whose `Head` is an operator starts with its symbol. -/
theorem Head.eq_atom_of_binary {d : Declared} {e : Sexp} {op : BinaryOp}
    (h : Head.of d e = .binary op) :
    (∃ span, e = .atom op.symbol span) ∧ BinaryOp.ofSymbol? op.symbol = some op := by
  cases e with
  | list => cases h
  | atom text span =>
    simp only [Head.of] at h
    split at h
    · next op' hop =>
      cases h
      obtain rfl := BinaryOp.symbol_of_ofSymbol? hop
      exact ⟨⟨span, rfl⟩, hop⟩
    · grind

/-! ### Expressions -/

/-- What is true of an expression that a list applies to arguments: an atom that reads as a name or
a truth value leads an application, and a constructor in parentheses builds data. -/
def Expr.Leads (d : Declared) : Expr → Prop
  | var name _ => ∀ span, Head.of d (.atom name span) = .app
  | boolean value _ => ∀ span, Head.of d (.atom (if value then "true" else "false") span) = .app
  | construct name [] _ => ∀ span, Head.of d (.atom name span) = .construct name
  | _ => True

/-- What is true of expressions read after the declarations `d`. -/
inductive Expr.Readable (d : Declared) : Expr → Prop
  /-- A name is an atom that means nothing else. -/
  | var {name : String} {span : Option Span} (hatom : IsAtom name)
    (h : Expr.ofAtom d name span = .var name span) : Readable d (.var name span)
  /-- A number is not negative, and has not too many digits. -/
  | number {n : Nat} {span : Option Span} (hdigits : d.exceeded? (toString n) = none) :
    Readable d (.number n span)
  | boolean (value : Bool) (span : Option Span) : Readable d (.boolean value span)
  | not {operand : Expr} {span : Option Span} (hoperand : Readable d operand) :
    Readable d (.not operand span)
  | binary {op : BinaryOp} {left right : Expr} {span : Option Span}
    (hop : BinaryOp.ofSymbol? op.symbol = some op) (hleft : Readable d left)
    (hright : Readable d right) : Readable d (.binary op left right span)
  | cond {condition thenBranch elseBranch : Expr} {span : Option Span}
    (hcondition : Readable d condition) (hthen : Readable d thenBranch)
    (helse : Readable d elseBranch) : Readable d (.cond condition thenBranch elseBranch span)
  /-- A function has an atom as its parameter. -/
  | lambda {param : String} {paramTy : Ty} {body : Expr} {span : Option Span}
    (hatom : IsAtom param) (hparamTy : paramTy.Readable d) (hbody : Readable d body) :
    Readable d (.lambda param paramTy body span)
  | app {head : Expr} {args : List Expr} {span : Option Span} (hlead : head.Leads d)
    (hhead : Readable d head) (hargs : ∀ e ∈ args, Readable d e) : Readable d (.app head args span)
  | pair {first second : Expr} {span : Option Span} (hfirst : Readable d first)
    (hsecond : Readable d second) : Readable d (.pair first second span)
  | fst {operand : Expr} {span : Option Span} (hoperand : Readable d operand) :
    Readable d (.fst operand span)
  | snd {operand : Expr} {span : Option Span} (hoperand : Readable d operand) :
    Readable d (.snd operand span)
  /-- What builds data is a declared constructor that is no other form, or a constructor without
  fields. -/
  | construct {name : String} {args : List Expr} {span : Option Span} (hatom : IsAtom name)
    (hname : (∀ span, Head.of d (.atom name span) = .construct name) ∨
      args = [] ∧ d.isNullary name = true)
    (hargs : ∀ e ∈ args, Readable d e) : Readable d (.construct name args span)
  /-- Patterns and branches of a match pair up. -/
  | cases {scrutinee : Expr} {patterns : List Pattern} {branches : List Expr} {span : Option Span}
    (hscrutinee : Readable d scrutinee) (hlength : patterns.length = branches.length)
    (hpatterns : ∀ p ∈ patterns, p.Readable d) (hbranches : ∀ e ∈ branches, Readable d e) :
    Readable d (.cases scrutinee patterns branches span)

/-- A name that `Expr.ofAtom` makes of an atom is no truth value, no number and no constructor
without fields. -/
theorem Expr.of_ofAtom_eq_var {d : Declared} {name : String} {span : Option Span}
    (h : Expr.ofAtom d name span = .var name span) :
    Text.decimal? name = none ∧ d.isNullary name = false := by
  rw [Expr.ofAtom] at h
  split at h
  · cases h
  · split at h
    · cases h
    · split at h
      · cases h
      · next hdecimal =>
        split at h
        · cases h
        · next hnullary => exact ⟨hdecimal, Bool.eq_false_iff.mpr hnullary⟩

/-- Whatever expression an atom writes is readable. -/
theorem Expr.readable_ofAtom {d : Declared} {text : String} (h : IsAtom text)
    (hdigits : d.exceeded? text = none) (span : Option Span) :
    (Expr.ofAtom d text span).Readable d := by
  rw [Expr.ofAtom]
  split
  · exact .boolean true span
  · next htrue =>
    split
    · exact .boolean false span
    · next hfalse =>
      split
      · next value hvalue => exact .number (Declared.exceeded?_toString hvalue hdigits)
      · next hvalue =>
        split
        · next hnullary => exact .construct h (.inr ⟨rfl, hnullary⟩) (by simp)
        · next hnullary =>
          refine .var h ?_
          simp only [Expr.ofAtom, htrue, hfalse, hvalue, hnullary, Bool.false_eq_true, if_false]

/-- A constructor without fields does not lead an application: its `Head` is not `app`. -/
theorem Head.ne_app_of_isNullary {d : Declared} {name : String} (h : d.isNullary name = true)
    (span : Span) : Head.of d (.atom name span) ≠ .app := by
  have hcontains : d.constructors.contains name = true := by
    rw [Declared.isNullary, decide_eq_true_eq] at h
    rw [Table.contains, h]
    rfl
  intro happ
  simp only [Head.of, hcontains, if_true] at happ
  split at happ
  · cases happ
  · grind

/-- What an atom writes that leads an application, by `Expr.Leads`. -/
theorem Expr.leads_ofAtom {d : Declared} {text : String} {span : Span}
    (h : Head.of d (.atom text span) = .app) : (Expr.ofAtom d text (some span)).Leads d := by
  rw [Expr.ofAtom]
  split
  · next htrue => exact fun _ => htrue ▸ h
  · split
    · next hfalse => exact fun _ => hfalse ▸ h
    · split
      · trivial
      · split
        · next hnullary => exact absurd h (Head.ne_app_of_isNullary hnullary span)
        · exact fun _ => h

/-- What a form writes that leads an application, by `Expr.Leads`. -/
theorem Expr.OfSexp.leads {e : Sexp} {x : Expr} (h : OfSexp d e x) (happ : Head.of d e = .app) :
    x.Leads d := by
  cases h with
  | atom => exact Expr.leads_ofAtom happ
  | @construct _ _ _ _ xs hhead =>
    obtain ⟨headSpan, rfl⟩ := Head.eq_atom_of_construct hhead
    cases xs with
    | nil => exact fun _ => hhead
    | cons => trivial
  | _ => trivial

mutual

/-- Whatever expression a form writes is readable. -/
theorem Expr.OfSexp.readable : ∀ {e : Sexp} {x : Expr}, OfSexp d e x → e.form.IsReadable →
    x.Readable d
  | _, _, .atom hdigits, he => Expr.readable_ofAtom he hdigits _
  | _, _, .binary hhead hleft hright, he => by
    have hitems := Sexp.isReadable_of_mem he
    exact .binary (Head.eq_atom_of_binary hhead).2 (hleft.readable (hitems _ (by simp)))
      (hright.readable (hitems _ (by simp)))
  | _, _, .not _ hoperand, he => by
    have hitems := Sexp.isReadable_of_mem he
    exact .not (hoperand.readable (hitems _ (by simp)))
  | _, _, .fst _ hoperand, he => by
    have hitems := Sexp.isReadable_of_mem he
    exact .fst (hoperand.readable (hitems _ (by simp)))
  | _, _, .snd _ hoperand, he => by
    have hitems := Sexp.isReadable_of_mem he
    exact .snd (hoperand.readable (hitems _ (by simp)))
  | _, _, .cond _ hcondition hthen helse, he => by
    have hitems := Sexp.isReadable_of_mem he
    exact .cond (hcondition.readable (hitems _ (by simp))) (hthen.readable (hitems _ (by simp)))
      (helse.readable (hitems _ (by simp)))
  | _, _, @OfSexp.lambda _ _ _ _ param paramSpan _ _ _ _ hparamTy hbody, he => by
    have hitems := Sexp.isReadable_of_mem he
    exact .lambda (hitems (.atom param paramSpan) (by simp))
      (hparamTy.readable (hitems _ (by simp))) (hbody.readable (hitems _ (by simp)))
  | _, _, .pair _ hfirst hsecond, he => by
    have hitems := Sexp.isReadable_of_mem he
    exact .pair (hfirst.readable (hitems _ (by simp))) (hsecond.readable (hitems _ (by simp)))
  | _, _, @OfSexp.cases _ _ _ arms armsSpan _ _ ps xs _ _ hscrutinee hpatterns hbranches, he => by
    have hitems := Sexp.isReadable_of_mem he
    have harms := Sexp.isReadable_of_mem (hitems (.list arms armsSpan) (by simp))
    have hlength : ps.length = xs.length := by
      rw [← hpatterns.length_eq, ← hbranches.length_eq, length_armPatterns]
    exact .cases (hscrutinee.readable (hitems _ (by simp))) hlength
      (hpatterns.readable fun e he => harms e (mem_of_mem_arms (.inl he)))
      (hbranches.readable fun e he => harms e (mem_of_mem_arms (.inr he)))
  | _, _, .construct hhead hargs, he => by
    have hitems := Sexp.isReadable_of_mem he
    obtain ⟨headSpan, rfl⟩ := Head.eq_atom_of_construct hhead
    exact .construct (hitems _ List.mem_cons_self) (.inl fun _ => hhead)
      (hargs.readable fun e he => hitems e (List.mem_cons_of_mem _ he))
  | _, _, .app happ hhead hargs, he => by
    have hitems := Sexp.isReadable_of_mem he
    exact .app (hhead.leads happ) (hhead.readable (hitems _ List.mem_cons_self))
      (hargs.readable fun e he => hitems e (List.mem_cons_of_mem _ he))

theorem Expr.OfSexps.readable : ∀ {es : List Sexp} {xs : List Expr}, OfSexps d es xs →
    (∀ e ∈ es, e.form.IsReadable) → ∀ x ∈ xs, x.Readable d
  | _, _, .nil, _ => List.forall_mem_nil _
  | _, _, .cons h hs, hes =>
    have ⟨he, hes⟩ := List.forall_mem_cons.mp hes
    List.forall_mem_cons.mpr ⟨h.readable he, hs.readable hes⟩

end

end Casewise
