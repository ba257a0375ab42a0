import Casewise.Program
import Casewise.Proofs.Reading.Readable

/-!
# The forms that are written

Types, patterns, expressions and statements are written as texts, and each of these texts spells one
form: `Ty.form`, `Pattern.form`, `Expr.form` and `Stmt.form`. What has been read is readable, so
what is written for it spells its form, whatever stands in its names and strings. Reading it back is
then a matter of forms alone.

## Main definitions

* `Writes`: texts that spell a form.
* `Ty.WellNamed`: types whose data types have names of their own.

## Main statements

* `Ty.WellNamed.writes`: a well-named type is written as its form.
* `Ty.Readable.writes`, `Pattern.Readable.writes`, `Expr.Readable.writes`: a readable piece of
  syntax is written as its form.
-/

namespace Casewise

/-! ### Texts that spell a form -/

/-- The text spells the form, wherever it stands. -/
def Writes (text : String) (f : Form) : Prop :=
  Spelt text f.lexemes

theorem Writes.atom {text : String} (h : IsAtom text) : Writes text (.atom text) :=
  Spelt.atom h

theorem Writes.list {parts : List String} {fs : List Form} (h : List.Forall₂ Writes parts fs) :
    Writes (Text.parenthesized parts) (.list fs) := by
  rw [Writes, Form.lexemes, Form.lexemesAll_eq_flatten]
  exact Spelt.parenthesized (List.forall₂_map_right_iff.mpr h)

theorem spelt_setApart {parts : List String} {text : String} (htext : SetApart parts text)
    {fs : List Form} (h : List.Forall₂ Writes parts fs) : Spelt text (Form.lexemesAll fs) := by
  rw [Form.lexemesAll_eq_flatten]
  exact Spelt.setApart (List.forall₂_map_right_iff.mpr h) htext

/-- A text of ordinary characters `IsAtom`. -/
theorem isAtom_of_plain {text : String} (hne : text.toList ≠ [])
    (hhead : text.toList.head? ≠ some '"')
    (h : text.toList.all (fun c => !Scan.endsAtom c) = true) : IsAtom text := by
  refine .inl ⟨hne, hhead, fun c hc => ?_⟩
  have := List.all_eq_true.mp h c hc
  rwa [Bool.not_eq_true'] at this

/-- The words and symbols that have a meaning of their own. -/
def words : List String :=
  ["_", "true", "false", "pair", "->", "+", "=", "and", "or", "not", "if", "lambda", "fst", "snd",
    "match", "define", "assign", "print", "data", "Nat", "Bool", "Str"]

theorem isAtom_of_mem_words {text : String} (h : text ∈ words) : IsAtom text := by
  have hplain : ∀ text ∈ words, text.toList ≠ [] ∧ text.toList.head? ≠ some '"' ∧
      text.toList.all (fun c => !Scan.endsAtom c) = true := by
    decide +kernel
  obtain ⟨hne, hhead, hall⟩ := hplain text h
  exact isAtom_of_plain hne hhead hall

theorem Writes.word (text : String) (h : text ∈ words) : Writes text (.atom text) :=
  .atom (isAtom_of_mem_words h)

theorem writes_map {α : Type} {text : α → String} {form : α → Form} {as : List α}
    (h : ∀ a ∈ as, Writes (text a) (form a)) : List.Forall₂ Writes (as.map text) (as.map form) := by
  rw [List.forall₂_map_left_iff, List.forall₂_map_right_iff, List.forall₂_same]
  exact h

/-! ### Types -/

mutual

/-- The form as which a type is written. -/
def Ty.form : Ty → Form
  | prim name => .atom name
  | arrow inputs output => .list (.atom "->" :: (forms inputs ++ [form output]))
  | pair first second => .list [.atom "pair", form first, form second]
  | data name => .atom name
  | construct _ _ owner => .atom owner

/-- The forms as which types are written. -/
def Ty.forms : List Ty → List Form
  | [] => []
  | ty :: tys => form ty :: forms tys

end

@[simp]
theorem Ty.forms_eq_map (tys : List Ty) : Ty.forms tys = tys.map Ty.form := by
  induction tys with
  | nil => rfl
  | cons ty tys ih => rw [Ty.forms, ih, List.map_cons]

/-- The data types that the name of a type is made of have names of their own: atoms that are not
the names of built-in types. -/
inductive Ty.WellNamed : Ty → Prop
  /-- A built-in type goes by its own name. -/
  | prim {name : String} (h : Ty.builtin? name = some (.prim name)) : WellNamed (.prim name)
  | arrow {inputs : List Ty} {output : Ty} (hinputs : ∀ ty ∈ inputs, WellNamed ty)
    (houtput : WellNamed output) : WellNamed (.arrow inputs output)
  | pair {first second : Ty} (hfirst : WellNamed first) (hsecond : WellNamed second) :
    WellNamed (.pair first second)
  | data {name : String} (hatom : IsAtom name) (hbuiltin : Ty.builtin? name = none) :
    WellNamed (.data name)
  /-- The type of what a constructor builds is named as its data type. -/
  | construct {name : String} {args : List Ty} {owner : String} (hatom : IsAtom owner)
    (hbuiltin : Ty.builtin? owner = none) : WellNamed (.construct name args owner)

/-- A `Readable` type is `WellNamed`. -/
theorem Ty.Readable.wellNamed {d : Declared} {ty : Ty} (h : ty.Readable d) : ty.WellNamed := by
  induction h with
  | prim h => exact .prim h
  | arrow _ _ _ ihs ih => exact .arrow ihs ih
  | pair _ _ ih ih' => exact .pair ih ih'
  | data hatom hbuiltin _ => exact .data hatom hbuiltin

/-- A `WellNamed` type `Writes` its form. -/
theorem Ty.WellNamed.writes {ty : Ty} (h : ty.WellNamed) : Writes ty.text ty.form := by
  induction h with
  | @prim name hname =>
    have hmem : name = "Nat" ∨ name = "Bool" ∨ name = "Str" := by
      rw [Ty.builtin?] at hname
      grind
    exact .word _ (by rcases hmem with h | h | h <;> rw [h] <;> decide)
  | arrow hinputs houtput ihs ih =>
    rw [Ty.text, Ty.form, Ty.texts_eq_map, Ty.forms_eq_map]
    exact .list (.cons (.word "->" (by decide)) (List.rel_append (writes_map ihs) (.cons ih .nil)))
  | pair hfirst hsecond ih ih' =>
    exact .list (.cons (.word "pair" (by decide)) (.cons ih (.cons ih' .nil)))
  | data hatom _ => exact .atom hatom
  | construct hatom _ => exact .atom hatom

theorem Ty.Readable.writes {d : Declared} {ty : Ty} (h : ty.Readable d) : Writes ty.text ty.form :=
  h.wellNamed.writes

/-! ### Patterns -/

mutual

/-- The form as which a pattern is written. -/
def Pattern.form : Pattern → Form
  | wildcard _ => .atom "_"
  | binding name _ => .atom name
  | number value _ => .atom (toString value)
  | boolean value _ => .atom (if value then "true" else "false")
  | string value _ => .atom ("\"" ++ value ++ "\"")
  | construct name [] _ => .atom name
  | construct name (arg :: args) _ => .list (.atom name :: forms (arg :: args))
  | pair first second _ => .list [.atom "pair", form first, form second]

/-- The forms as which patterns are written. -/
def Pattern.forms : List Pattern → List Form
  | [] => []
  | p :: ps => form p :: forms ps

end

@[simp]
theorem Pattern.forms_eq_map (ps : List Pattern) : Pattern.forms ps = ps.map Pattern.form := by
  induction ps with
  | nil => rfl
  | cons p ps ih => rw [Pattern.forms, ih, List.map_cons]

theorem Pattern.texts_eq_map (ps : List Pattern) : Pattern.texts ps = ps.map Pattern.text := by
  induction ps with
  | nil => rfl
  | cons p ps ih => rw [Pattern.texts, ih, List.map_cons]

theorem Writes.truth (value : Bool) :
    Writes (if value then "true" else "false") (.atom (if value then "true" else "false")) := by
  cases value <;> exact .word _ (by decide)

theorem Pattern.Readable.writes {d : Declared} {p : Pattern} (h : p.Readable d) :
    Writes p.text p.form := by
  induction h with
  | wildcard => exact .word "_" (by decide)
  | binding hatom => exact .atom hatom
  | number => exact .atom (isAtom_toString _)
  | boolean value => exact .truth value
  | string hatom => exact .atom hatom
  | @construct name args span hatom hname hargs ih =>
    cases args with
    | nil => exact .atom hatom
    | cons arg args =>
      rw [Pattern.text, Pattern.form, Pattern.texts_eq_map, Pattern.forms_eq_map]
      exact .list (.cons (.atom hatom) (writes_map ih))
  | pair hfirst hsecond ih ih' =>
    exact .list (.cons (.word "pair" (by decide)) (.cons ih (.cons ih' .nil)))

/-! ### Expressions -/

/-- Two lists in turn, as far as they pair up. -/
def interleave {α : Type} : List α → List α → List α
  | a :: as, b :: bs => a :: b :: interleave as bs
  | _, _ => []

mutual

/-- The form as which an expression is written. -/
def Expr.form : Expr → Form
  | var name _ => .atom name
  | number value _ => .atom (toString value)
  | boolean value _ => .atom (if value then "true" else "false")
  | not operand _ => .list [.atom "not", form operand]
  | binary op left right _ => .list [.atom op.symbol, form left, form right]
  | cond condition thenBranch elseBranch _ =>
    .list [.atom "if", form condition, form thenBranch, form elseBranch]
  | lambda param paramTy body _ => .list [.atom "lambda", .atom param, paramTy.form, form body]
  | app head args _ => .list (form head :: forms args)
  | pair first second _ => .list [.atom "pair", form first, form second]
  | fst operand _ => .list [.atom "fst", form operand]
  | snd operand _ => .list [.atom "snd", form operand]
  | construct name [] _ => .atom name
  | construct name (arg :: args) _ => .list (.atom name :: forms (arg :: args))
  | cases scrutinee patterns branches _ =>
    .list [.atom "match", form scrutinee,
      .list (interleave (patterns.map Pattern.form) (forms branches))]

/-- The forms as which expressions are written. -/
def Expr.forms : List Expr → List Form
  | [] => []
  | e :: es => form e :: forms es

end

@[simp]
theorem Expr.forms_eq_map (es : List Expr) : Expr.forms es = es.map Expr.form := by
  induction es with
  | nil => rfl
  | cons e es ih => rw [Expr.forms, ih, List.map_cons]

theorem Expr.texts_eq_map (es : List Expr) : Expr.texts es = es.map Expr.text := by
  induction es with
  | nil => rfl
  | cons e es ih => rw [Expr.texts, ih, List.map_cons]

/-- The arms of a match are written in turn, by `interleave`. -/
theorem Expr.armTexts_eq_interleave (ps : List Pattern) (es : List Expr) :
    Expr.armTexts ps es = interleave (ps.map Pattern.text) (es.map Expr.text) := by
  induction ps generalizing es with
  | nil => cases es <;> rfl
  | cons p ps ih =>
    cases es with
    | nil => rfl
    | cons e es => rw [Expr.armTexts, ih, List.map_cons, List.map_cons, interleave]

/-- Two lists that are written one by one are written in turn, by `interleave`. -/
theorem writes_interleave {as bs : List String} {fs gs : List Form}
    (h : List.Forall₂ Writes as fs) (h' : List.Forall₂ Writes bs gs) :
    List.Forall₂ Writes (interleave as bs) (interleave fs gs) := by
  induction h generalizing bs gs with
  | nil => exact .nil
  | cons ha _ ih =>
    cases h' with
    | nil => exact .nil
    | cons hb hbs => exact .cons ha (.cons hb (ih hbs))

/-- The `symbol` of an operator that the language knows is a word. -/
theorem BinaryOp.writes_symbol {op : BinaryOp} (h : BinaryOp.ofSymbol? op.symbol = some op) :
    Writes op.symbol (.atom op.symbol) := by
  have hmem : op.symbol = "+" ∨ op.symbol = "=" ∨ op.symbol = "and" ∨ op.symbol = "or" := by
    rw [BinaryOp.ofSymbol?] at h
    grind
  exact .word _ (by rcases hmem with h | h | h | h <;> rw [h] <;> decide)

/-- A `Readable` expression `Writes` its form. -/
theorem Expr.Readable.writes {d : Declared} {e : Expr} (h : e.Readable d) :
    Writes e.text e.form := by
  induction h with
  | var hatom => exact .atom hatom
  | number => exact .atom (isAtom_toString _)
  | boolean value => exact .truth value
  | not hoperand ih => exact .list (.cons (.word "not" (by decide)) (.cons ih .nil))
  | binary hop hleft hright ih ih' =>
    exact .list (.cons (BinaryOp.writes_symbol hop) (.cons ih (.cons ih' .nil)))
  | cond hcondition hthen helse ih ih' ih'' =>
    exact .list (.cons (.word "if" (by decide)) (.cons ih (.cons ih' (.cons ih'' .nil))))
  | lambda hatom hparamTy hbody ih =>
    exact .list (.cons (.word "lambda" (by decide))
      (.cons (.atom hatom) (.cons hparamTy.writes (.cons ih .nil))))
  | app hlead hhead hargs ih ihs =>
    rw [Expr.text, Expr.form, Expr.texts_eq_map, Expr.forms_eq_map]
    exact .list (.cons ih (writes_map ihs))
  | pair hfirst hsecond ih ih' =>
    exact .list (.cons (.word "pair" (by decide)) (.cons ih (.cons ih' .nil)))
  | fst hoperand ih => exact .list (.cons (.word "fst" (by decide)) (.cons ih .nil))
  | snd hoperand ih => exact .list (.cons (.word "snd" (by decide)) (.cons ih .nil))
  | @construct name args span hatom hname hargs ihs =>
    cases args with
    | nil => exact .atom hatom
    | cons arg args =>
      rw [Expr.text, Expr.form, Expr.texts_eq_map, Expr.forms_eq_map]
      exact .list (.cons (.atom hatom) (writes_map ihs))
  | cases hscrutinee hlength hpatterns hbranches ih ihs =>
    rw [Expr.text, Expr.form, Expr.armTexts_eq_interleave, Expr.forms_eq_map]
    refine .list (.cons (.word "match" (by decide)) (.cons ih (.cons (.list ?_) .nil)))
    exact writes_interleave (writes_map fun p hp => (hpatterns p hp).writes) (writes_map ihs)

end Casewise
