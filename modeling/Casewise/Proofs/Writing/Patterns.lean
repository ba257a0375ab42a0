import Casewise.Proofs.Reading.Strings
import Casewise.Proofs.Writing.Forms

/-!
# Reading written patterns

A type that has been read and written reads as itself again. A pattern does so unless a constructor
without fields in it means something else as a bare atom: it is written without its parentheses.
`Pattern.Clear` says of one such constructor that its name still means it.

## Main definitions

* `Pattern.parts`: a pattern and all patterns in it.
* `Pattern.Clear`: whether the name of a constructor without fields means it.

## Main statements

* `Ty.OfSexp.of_form`: a form as which a type is written reads as the type.
* `Pattern.readsAs_iff`: a form as which a pattern is written reads as the pattern if and only if
  all parts of the pattern are clear.
-/

namespace Casewise

/-! ### Lists that are read one by one -/

/-- Members of a list are found again one by one if and only if all of them are clear. -/
theorem exists_forall₂_iff {α β γ δ : Type} {rel : α → δ → Prop} {same : δ → β → Prop}
    {clear : β → Prop} {form : α → γ} {form' : β → γ} {as : List α} {bs : List β}
    (h : as.map form = bs.map form')
    (hone : ∀ b ∈ bs, ∀ a, form a = form' b → ((∃ b', rel a b' ∧ same b' b) ↔ clear b)) :
    (∃ bs', List.Forall₂ rel as bs' ∧ List.Forall₂ same bs' bs) ↔ ∀ b ∈ bs, clear b := by
  induction bs generalizing as with
  | nil =>
    obtain rfl := List.map_eq_nil_iff.mp h
    simp
  | cons b bs ih =>
    obtain ⟨a, as, rfl, ha, has⟩ := List.map_eq_cons_iff.mp h
    rw [List.forall_mem_cons] at hone ⊢
    rw [← hone.1 a ha, ← ih has hone.2]
    constructor
    · rintro ⟨bs', hrel, hsame⟩
      obtain ⟨b', bs', hab, habs, rfl⟩ := List.forall₂_cons_left_iff.mp hrel
      obtain ⟨hb, hbs⟩ := List.forall₂_cons.mp hsame
      exact ⟨⟨b', hab, hb⟩, bs', habs, hbs⟩
    · rintro ⟨⟨b', hab, hb⟩, bs', habs, hbs⟩
      exact ⟨b' :: bs', .cons hab habs, .cons hb hbs⟩

/-! ### Types -/

/-- Forms as which types are written write the types, one by one (`OfSexps`), if each of them
does. -/
theorem Ty.OfSexps.of_forms {d : Declared} {tys : List Ty} {es : List Sexp}
    (h : es.map Sexp.form = tys.map Ty.form)
    (hone : ∀ ty ∈ tys, ∀ e : Sexp, e.form = ty.form → OfSexp d e ty) : OfSexps d es tys := by
  induction tys generalizing es with
  | nil =>
    rw [List.map_eq_nil_iff.mp h]
    exact .nil
  | cons ty tys ih =>
    obtain ⟨e, es, rfl, he, hes⟩ := List.map_eq_cons_iff.mp h
    rw [List.forall_mem_cons] at hone
    exact .cons (hone.1 e he) (ih hes hone.2)

/-- A form as which a `Readable` type is written writes the type. -/
theorem Ty.OfSexp.of_form {d : Declared} {ty : Ty} (h : ty.Readable d) {e : Sexp}
    (he : e.form = ty.form) : OfSexp d e ty := by
  induction h generalizing e with
  | prim hname =>
    obtain ⟨span, rfl⟩ := Sexp.form_eq_atom.mp he
    exact .builtin hname
  | @arrow inputs output hne hinputs houtput ihs ih =>
    obtain ⟨headSpan, args, span, rfl, hargs⟩ := Sexp.form_eq_headed.mp he
    have hargs : args.map Sexp.form = (inputs ++ [output]).map Ty.form := by
      rw [hargs, Ty.forms_eq_map, List.map_append]
      rfl
    refine .arrow hne (OfSexps.of_forms hargs ?_)
    rw [List.forall_mem_append, List.forall_mem_singleton]
    exact ⟨fun ty hty e => ihs ty hty, fun e => ih⟩
  | pair hfirst hsecond ih ih' =>
    obtain ⟨headSpan, args, span, rfl, hargs⟩ := Sexp.form_eq_headed.mp he
    obtain ⟨a, rest, rfl, ha, hrest⟩ := List.map_eq_cons_iff.mp hargs
    obtain ⟨b, rfl, hb⟩ := List.map_eq_singleton_iff.mp hrest
    exact .pair (ih ha) (ih' hb)
  | data hatom hbuiltin hmem =>
    obtain ⟨span, rfl⟩ := Sexp.form_eq_atom.mp he
    exact .data hbuiltin hmem

/-! ### Patterns in patterns -/

mutual

/-- The pattern and all patterns in it. -/
def Pattern.parts : Pattern → List Pattern
  | construct name args span => construct name args span :: partsAll args
  | pair first second span => pair first second span :: (parts first ++ parts second)
  | p => [p]

/-- The patterns and all patterns in them. -/
def Pattern.partsAll : List Pattern → List Pattern
  | [] => []
  | p :: ps => parts p ++ partsAll ps

end

theorem Pattern.mem_partsAll {ps : List Pattern} {q : Pattern} :
    q ∈ Pattern.partsAll ps ↔ ∃ p ∈ ps, q ∈ p.parts := by
  induction ps with
  | nil => simp [Pattern.partsAll]
  | cons p ps ih => simp [Pattern.partsAll, ih]

theorem Pattern.forall_mem_partsAll {ps : List Pattern} {motive : Pattern → Prop} :
    (∀ q ∈ Pattern.partsAll ps, motive q) ↔ ∀ p ∈ ps, ∀ q ∈ p.parts, motive q := by
  simp only [Pattern.mem_partsAll]
  exact ⟨fun h p hp q hq => h q ⟨p, hp, hq⟩, fun h q ⟨p, hp, hq⟩ => h p hp q hq⟩

/-- Where constructors have the numbers of fields `arity`: if the pattern is a constructor without
fields, its name as an atom means that constructor. -/
def Pattern.Clear (arity : String → Option Nat) : Pattern → Prop
  | construct name [] _ =>
    arity name = some 0 ∧ name ≠ "_" ∧ name ≠ "true" ∧ name ≠ "false" ∧
      (¬ ∀ c ∈ name.toList, Text.isDigit c = true) ∧ Text.isStringLiteral name = false
  | _ => True

/-! ### Atoms -/

theorem Text.isStringLiteral_quoted (value : String) :
    Text.isStringLiteral ("\"" ++ value ++ "\"") = true := by
  have hlist : ("\"" ++ value ++ "\"").toList = '"' :: (value.toList ++ ['"']) := by simp
  rw [Text.isStringLiteral, hlist]
  simp

theorem Text.unquoted_quoted (value : String) : Text.unquoted ("\"" ++ value ++ "\"") = value := by
  simp [Text.unquoted]

theorem ne_of_decimal? {text other : String} {n : Nat} (h : Text.decimal? text = some n)
    (hother : Text.decimal? other = none) : text ≠ other := by
  rintro rfl
  rw [h] at hother
  cases hother

theorem ne_toString_of_decimal? {text : String} (h : Text.decimal? text = none) (n : Nat) :
    toString n ≠ text :=
  ne_of_decimal? (Text.decimal?_toString n) h

theorem decimal?_eq_none_iff {text : String} (h : IsAtom text) :
    Text.decimal? text = none ↔ ¬ ∀ c ∈ text.toList, Text.isDigit c = true := by
  rw [← decimal?_isSome_iff h, Option.not_isSome_iff_eq_none]

namespace Pattern

theorem same_ofAtom (nullary : String → Bool) (text : String) (span span' : Option Span) :
    ((ofAtom nullary text span).same (ofAtom nullary text span')) = true := by
  simp only [ofAtom]
  split
  · rfl
  · split
    · simp [same]
    · split
      · rfl
      · split
        · rfl
        · split
          · simp [same]
          · split <;> simp [same, sameAll]

theorem ofAtom_of_decimal? {text : String} {n : Nat} (h : Text.decimal? text = some n)
    (nullary : String → Bool) (span : Option Span) :
    ofAtom nullary text span = number n span := by
  rw [ofAtom, if_neg (ne_of_decimal? h rfl), h]

theorem ofAtom_toString (nullary : String → Bool) (n : Nat) (span : Option Span) :
    ofAtom nullary (toString n) span = number n span :=
  ofAtom_of_decimal? (Text.decimal?_toString n) nullary span

theorem ofAtom_truth (nullary : String → Bool) (value : Bool) (span : Option Span) :
    ofAtom nullary (if value then "true" else "false") span = boolean value span := by
  cases value <;> rfl

/-- A text that starts and ends with a quote reads as the string between the two,
`Text.unquoted`. -/
theorem ofAtom_of_isStringLiteral {text : String} (h : Text.isStringLiteral text = true)
    (nullary : String → Bool) (span : Option Span) :
    ofAtom nullary text span = string (Text.unquoted text) span := by
  have hquoted := Text.isQuoted_of_isStringLiteral h
  have hwild : text ≠ "_" := Text.ne_of_isQuoted hquoted rfl
  have htrue : text ≠ "true" := Text.ne_of_isQuoted hquoted rfl
  have hfalse : text ≠ "false" := Text.ne_of_isQuoted hquoted rfl
  rw [ofAtom, if_neg hwild, Text.decimal?_of_isQuoted hquoted]
  dsimp only
  rw [if_neg htrue, if_neg hfalse, if_pos h]

theorem ofAtom_quoted (nullary : String → Bool) (value : String) (span : Option Span) :
    ofAtom nullary ("\"" ++ value ++ "\"") span = string value span := by
  rw [ofAtom_of_isStringLiteral (Text.isStringLiteral_quoted value), Text.unquoted_quoted]

/-- `Pattern.ofAtom` gives a constructor without fields if and only if the atom is the name of one
and nothing else. -/
theorem same_ofAtom_construct {d : Declared} {text : String} (h : IsAtom text)
    {span span' : Option Span} :
    ((ofAtom d.isNullary text span).same (construct text [] span')) = true ↔
      (construct text [] span').Clear d.constructors.get? := by
  rw [Clear, ← decimal?_eq_none_iff h,
    ← decide_eq_true_iff (p := d.constructors.get? text = some 0)]
  change _ ↔ d.isNullary text = true ∧ _
  simp only [ofAtom]
  split
  · next hwild => simp [same, hwild]
  · next hwild =>
    split
    · next value hvalue => simp [same, hvalue]
    · next hvalue =>
      split
      · next htrue => simp [same, htrue]
      · next htrue =>
        split
        · next hfalse => simp [same, hfalse]
        · next hfalse =>
          split
          · next hstring => simp [same, hstring]
          · next hstring =>
            split
            · next hnullary => simp [same, sameAll, hwild, hvalue, htrue, hfalse, hstring, hnullary]
            · next hnullary => simp [same, hnullary]

/-! ### Whole patterns -/

/-- `sameAll` compares lists of patterns one by one. -/
theorem sameAll_iff_forall₂ {ps qs : List Pattern} :
    sameAll ps qs = true ↔ List.Forall₂ (fun p q => p.same q = true) ps qs := by
  induction ps generalizing qs with
  | nil => cases qs <;> simp [sameAll]
  | cons p ps ih => cases qs <;> simp [sameAll, ih]

/-- The form reads as the pattern, apart from spans. -/
def ReadsAs (d : Declared) (e : Sexp) (p : Pattern) : Prop :=
  ∃ q, Pattern.ofSexp d e = .ok q ∧ q.same p = true

theorem readsAs_atom {d : Declared} {text : String} (hdigits : d.exceeded? text = none)
    {span : Span} {p : Pattern} :
    ReadsAs d (.atom text span) p ↔ (ofAtom d.isNullary text span).same p = true := by
  simp [ReadsAs, ofSexp, Declared.converted_eq_ok, hdigits]

/-- An atom `ReadsAs` a constructor without fields if it is the name of one and nothing else. -/
theorem readsAs_atom_construct {d : Declared} {text : String} (h : IsAtom text) {span : Span}
    {span' : Option Span} : ReadsAs d (.atom text span) (construct text [] span') ↔
      (construct text [] span').Clear d.constructors.get? := by
  by_cases hdigits : d.exceeded? text = none
  · rw [readsAs_atom hdigits, same_ofAtom_construct h]
  · refine iff_of_false ?_ fun hclear => ?_
    · rintro ⟨q, hq, -⟩
      exact hdigits (Declared.converted_eq_ok.mp hq).1
    · rw [Clear, ← decimal?_eq_none_iff h] at hclear
      exact hdigits (Declared.exceeded?_of_decimal?_eq_none (by tauto))

/-- `ReadsAs` for a list whose head is no pair: it builds what its head builds from the
arguments. -/
theorem readsAs_construct {d : Declared} {name : String} (hname : name ≠ "pair") {headSpan : Span}
    {args : List Sexp} {span : Span} {subs : List Pattern} {span' : Option Span} :
    ReadsAs d (.list (.atom name headSpan :: args) span) (construct name subs span') ↔
      ∃ qs, List.Forall₂ (fun e q => Pattern.ofSexp d e = .ok q) args qs ∧
        List.Forall₂ (fun q p => q.same p = true) qs subs := by
  simp only [ReadsAs, ofSexp_list_eq_ok, structured_eq_ok, hname, ne_eq, false_and,
    not_false_eq_true, true_and, false_or]
  constructor
  · rintro ⟨q, ⟨qs, hqs, rfl⟩, hsame⟩
    exact ⟨qs, hqs, sameAll_iff_forall₂.mp (by simpa [same] using hsame)⟩
  · rintro ⟨qs, hqs, hsame⟩
    exact ⟨_, ⟨qs, hqs, rfl⟩, by simpa [same] using sameAll_iff_forall₂.mpr hsame⟩

/-- `ReadsAs` for a list whose head is a pair. -/
theorem readsAs_pair {d : Declared} {headSpan : Span} {a b : Sexp} {span : Span}
    {first second : Pattern} {span' : Option Span} :
    ReadsAs d (.list [.atom "pair" headSpan, a, b] span) (pair first second span') ↔
      ReadsAs d a first ∧ ReadsAs d b second := by
  simp only [ReadsAs, ofSexp_list_eq_ok, structured_eq_ok, ne_eq, not_true_eq_false, true_and,
    false_and, or_false]
  constructor
  · rintro ⟨q, ⟨qs, hqs, p, p', rfl, rfl⟩, hsame⟩
    obtain ⟨hp, hqs⟩ := List.forall₂_cons.mp hqs
    obtain ⟨hp', -⟩ := List.forall₂_cons.mp hqs
    rw [same, Bool.and_eq_true] at hsame
    exact ⟨⟨p, hp, hsame.1⟩, p', hp', hsame.2⟩
  · rintro ⟨⟨p, hp, hsame⟩, p', hp', hsame'⟩
    refine ⟨pair p p' span, ⟨[p, p'], .cons hp (.cons hp' .nil), p, p', rfl, rfl⟩, ?_⟩
    rw [same, hsame, hsame', Bool.and_self]

/-- A form as which a readable pattern is written `ReadsAs` the pattern if and only if all `parts`
of the pattern are clear. -/
theorem readsAs_iff {d : Declared} {p : Pattern} (h : p.Readable d) {e : Sexp}
    (he : e.form = p.form) : ReadsAs d e p ↔ ∀ q ∈ p.parts, q.Clear d.constructors.get? := by
  induction h generalizing e with
  | wildcard =>
    obtain ⟨span, rfl⟩ := Sexp.form_eq_atom.mp he
    have hdigits : d.exceeded? "_" = none := Declared.exceeded?_of_decimal?_eq_none rfl
    rw [readsAs_atom hdigits]
    simp [ofAtom, same, parts, Clear]
  | @binding name span hatom hself =>
    obtain ⟨span', rfl⟩ := Sexp.form_eq_atom.mp he
    have hsame := same_ofAtom d.isNullary name span' span
    have hdecimal := (of_ofAtom_eq_binding hself).2.2.2.1
    rw [hself] at hsame
    rw [readsAs_atom (Declared.exceeded?_of_decimal?_eq_none hdecimal)]
    simp [hsame, parts, Clear]
  | @number n _ hdigits =>
    obtain ⟨span, rfl⟩ := Sexp.form_eq_atom.mp he
    change ReadsAs d (.atom (toString n) span) _ ↔ _
    rw [readsAs_atom hdigits, ofAtom_toString]
    simp [same, parts, Clear]
  | boolean value =>
    obtain ⟨span, rfl⟩ := Sexp.form_eq_atom.mp he
    rw [readsAs_atom (Declared.exceeded?_truth value), ofAtom_truth]
    simp [same, parts, Clear]
  | @string value span hatom =>
    obtain ⟨span', rfl⟩ := Sexp.form_eq_atom.mp he
    have hdecimal := Text.decimal?_of_isQuoted (Text.isQuoted_quoted value)
    rw [readsAs_atom (Declared.exceeded?_of_decimal?_eq_none hdecimal), ofAtom_quoted]
    simp [same, parts, Clear]
  | @construct name args span hatom hname hargs ih =>
    cases args with
    | nil =>
      obtain ⟨span', rfl⟩ := Sexp.form_eq_atom.mp he
      rw [readsAs_atom_construct hatom]
      simp [parts, partsAll]
    | cons arg args =>
      obtain ⟨headSpan, es, span', rfl, hes⟩ := Sexp.form_eq_headed.mp he
      rw [forms_eq_map] at hes
      rw [readsAs_construct (hname (List.cons_ne_nil _ _)), parts, List.forall_mem_cons,
        forall_mem_partsAll, ← exists_forall₂_iff hes fun p hp e he => ih p hp he]
      simp [Clear]
  | @pair first second span hfirst hsecond ih ih' =>
    obtain ⟨headSpan, es, span', rfl, hes⟩ := Sexp.form_eq_headed.mp he
    obtain ⟨a, rest, rfl, ha, hrest⟩ := List.map_eq_cons_iff.mp hes
    obtain ⟨b, rfl, hb⟩ := List.map_eq_singleton_iff.mp hrest
    rw [readsAs_pair, ih ha, ih' hb, parts, List.forall_mem_cons, List.forall_mem_append]
    simp [Clear]

end Pattern

end Casewise
