import Casewise.Program.Form
import Casewise.Proofs.Alongside
import Casewise.Proofs.Reading.Digits
import Casewise.Proofs.Syntax

/-!
# Reading rules

What forms write as a system of rules. A type, a pattern or an expression is read from a form
exactly if the form writes it by the rules. Unlike the functions that read, the rules say nothing of
the forms that are refused and can be followed backwards, so that what is true of everything that is
read takes one case for each rule.

## Main definitions

* `Ty.OfSexp`, `Pattern.OfSexp`, `Expr.OfSexp`: what a form writes after given declarations.

## Main statements

* `Ty.ofSexp_eq_ok`, `Pattern.ofSexp_eq_ok`, `Expr.ofSexp_eq_ok`: what is read from a form is what
  the form writes by the rules.
-/

namespace Casewise

variable {d : Declared}

/-! ### Types -/

namespace Ty

mutual

/-- The form writes the type, after the declarations `d`. -/
inductive OfSexp (d : Declared) : Sexp → Ty → Prop
  | builtin {name : String} {span : Span} {ty : Ty} (h : builtin? name = some ty) :
    OfSexp d (.atom name span) ty
  /-- A declared type, under a name that is not built in. -/
  | data {name : String} {span : Span} (hbuiltin : builtin? name = none)
    (hmem : name ∈ d.dataTypes) : OfSexp d (.atom name span) (.data name)
  /-- The inputs of a function, at least one, and its output. -/
  | arrow {arrowSpan span : Span} {args : List Sexp} {inputs : List Ty} {output : Ty}
    (hne : inputs ≠ []) (hargs : OfSexps d args (inputs ++ [output])) :
    OfSexp d (.list (.atom "->" arrowSpan :: args) span) (.arrow inputs output)
  | pair {pairSpan span : Span} {first second : Sexp} {a b : Ty} (hfirst : OfSexp d first a)
    (hsecond : OfSexp d second b) :
    OfSexp d (.list [.atom "pair" pairSpan, first, second] span) (.pair a b)

/-- The forms write the types, one by one. -/
inductive OfSexps (d : Declared) : List Sexp → List Ty → Prop
  | nil : OfSexps d [] []
  | cons {e : Sexp} {es : List Sexp} {ty : Ty} {tys : List Ty} (h : OfSexp d e ty)
    (hs : OfSexps d es tys) : OfSexps d (e :: es) (ty :: tys)

end

/-- `Ty.ofSexps` reads types one by one. -/
theorem ofSexps_eq_mapM (es : List Sexp) : ofSexps d es = es.mapM (ofSexp d) := by
  induction es with
  | nil => rfl
  | cons e es ih => rw [ofSexps, ih, List.mapM_cons]

theorem ofSexps_eq_ok {es : List Sexp} {tys : List Ty} :
    ofSexps d es = .ok tys ↔ List.Forall₂ (fun e ty => ofSexp d e = .ok ty) es tys := by
  rw [ofSexps_eq_mapM, mapM_eq_ok]

/-- `OfSexps` from a relation of lists. -/
theorem OfSexps.of_forall₂ {es : List Sexp} {tys : List Ty} (h : List.Forall₂ (OfSexp d) es tys) :
    OfSexps d es tys := by
  induction h with
  | nil => exact .nil
  | cons h _ ih => exact .cons h ih

/-- The type that `ofSexp` reads from a form is what the form writes. -/
theorem OfSexp.of_ofSexp {e : Sexp} {ty : Ty} (h : ofSexp d e = .ok ty) : OfSexp d e ty := by
  induction e generalizing ty with
  | atom name span =>
    rw [ofSexp] at h
    split at h
    · next ty' hbuiltin =>
      cases h
      exact .builtin hbuiltin
    · next hbuiltin =>
      split at h
      · next hmem =>
        cases h
        exact .data hbuiltin hmem
      · cases h
  | list items span ih =>
    rw [ofSexp.eq_def] at h
    split at h
    · next hlist => cases hlist
    · next arrowSpan args span' hlist =>
      cases hlist
      split at h
      · cases h
      · next hlength =>
        obtain ⟨tys, htys, h⟩ := bind_eq_ok.mp h
        cases h
        have htys := ofSexps_eq_ok.mp htys
        have hargs : OfSexps d args tys := .of_forall₂ <|
          forall₂_imp_of_mem htys fun e he _ => ih e (List.mem_cons_of_mem _ he)
        rw [htys.length_eq] at hlength
        obtain rfl | ⟨inputs, output, rfl⟩ := List.eq_nil_or_concat' tys
        · exact absurd Nat.zero_lt_two hlength
        · rw [List.dropLast_concat, List.getLast?_concat]
          refine .arrow ?_ hargs
          rintro rfl
          exact hlength Nat.one_lt_two
    · next pairSpan first second span' hlist =>
      cases hlist
      obtain ⟨a, ha, h⟩ := bind_eq_ok.mp h
      obtain ⟨b, hb, h⟩ := bind_eq_ok.mp h
      cases h
      exact .pair (ih first (by simp) ha) (ih second (by simp) hb)
    · cases h
    · cases h

mutual

/-- The type that a form writes is read from it. -/
theorem OfSexp.ofSexp_eq : ∀ {e : Sexp} {ty : Ty}, OfSexp d e ty → ofSexp d e = .ok ty
  | _, _, .builtin h => by rw [ofSexp, h]
  | _, _, .data hbuiltin hmem => by simp only [ofSexp, hbuiltin, if_pos hmem]
  | _, _, .arrow hne hargs => by
    have hread := hargs.ofSexps_eq
    have hlength := (ofSexps_eq_ok.mp hread).length_eq
    have hpos := List.length_pos_iff.mpr hne
    rw [List.length_append, List.length_singleton] at hlength
    rw [ofSexp, if_neg (by omega)]
    refine bind_eq_ok.mpr ⟨_, hread, ?_⟩
    rw [List.dropLast_concat, List.getLast?_concat]
    rfl
  | _, _, .pair hfirst hsecond => by
    rw [ofSexp, hfirst.ofSexp_eq, hsecond.ofSexp_eq]
    rfl

/-- The types that forms write are read from them. -/
theorem OfSexps.ofSexps_eq : ∀ {es : List Sexp} {tys : List Ty}, OfSexps d es tys →
    ofSexps d es = .ok tys
  | _, _, .nil => rfl
  | _, _, .cons h hs => by
    rw [ofSexps, h.ofSexp_eq, hs.ofSexps_eq]
    rfl

end

theorem OfSexps.of_ofSexps {es : List Sexp} {tys : List Ty} (h : ofSexps d es = .ok tys) :
    OfSexps d es tys :=
  .of_forall₂ ((ofSexps_eq_ok.mp h).imp fun _ _ => OfSexp.of_ofSexp)

/-- `Ty.ofSexp` has the type that the form writes, by the rules of `OfSexp`. -/
theorem ofSexp_eq_ok {e : Sexp} {ty : Ty} : ofSexp d e = .ok ty ↔ OfSexp d e ty :=
  ⟨OfSexp.of_ofSexp, OfSexp.ofSexp_eq⟩

end Ty

/-! ### Patterns -/

namespace Pattern

mutual

/-- The form writes the pattern, after the declarations `d`. -/
inductive OfSexp (d : Declared) : Sexp → Pattern → Prop
  /-- What an atom writes that has not too many digits. -/
  | atom {text : String} {span : Span} (hdigits : d.exceeded? text = none) :
    OfSexp d (.atom text span) (ofAtom d.isNullary text span)
  | pair {pairSpan span : Span} {first second : Sexp} {p q : Pattern} (hfirst : OfSexp d first p)
    (hsecond : OfSexp d second q) :
    OfSexp d (.list [.atom "pair" pairSpan, first, second] span) (.pair p q span)
  | construct {name : String} {nameSpan span : Span} {args : List Sexp} {ps : List Pattern}
    (hname : name ≠ "pair") (hargs : OfSexps d args ps) :
    OfSexp d (.list (.atom name nameSpan :: args) span) (.construct name ps span)

/-- The forms write the patterns, one by one. -/
inductive OfSexps (d : Declared) : List Sexp → List Pattern → Prop
  | nil : OfSexps d [] []
  | cons {e : Sexp} {es : List Sexp} {p : Pattern} {ps : List Pattern} (h : OfSexp d e p)
    (hs : OfSexps d es ps) : OfSexps d (e :: es) (p :: ps)

end

/-- `Pattern.ofSexps` reads patterns one by one. -/
theorem ofSexps_eq_mapM (es : List Sexp) : ofSexps d es = es.mapM (ofSexp d) := by
  induction es with
  | nil => rfl
  | cons e es ih => rw [ofSexps, ih, List.mapM_cons]

theorem ofSexps_eq_ok {es : List Sexp} {ps : List Pattern} :
    ofSexps d es = .ok ps ↔ List.Forall₂ (fun e p => ofSexp d e = .ok p) es ps := by
  rw [ofSexps_eq_mapM, mapM_eq_ok]

theorem OfSexps.of_forall₂ {es : List Sexp} {ps : List Pattern}
    (h : List.Forall₂ (OfSexp d) es ps) : OfSexps d es ps := by
  induction h with
  | nil => exact .nil
  | cons h _ ih => exact .cons h ih

/-- `structured` with a head is a pair of two patterns if the head says so, and else what the head
builds. -/
theorem structured_eq_ok {head : String} {subs : List Pattern} {span : Option Span} {p : Pattern} :
    structured head subs span = .ok p ↔
      (head = "pair" ∧ ∃ first second, subs = [first, second] ∧ p = .pair first second span) ∨
        (head ≠ "pair" ∧ p = .construct head subs span) := by
  rw [structured.eq_def]
  split
  · next hpair =>
    split
    · simp [hpair, eq_comm]
    · next hsubs => simpa [hpair] using fun a b h => absurd h (hsubs a b)
  · next hpair => simp [hpair, eq_comm]

/-- A list with a head reads as the pattern that its head makes of the patterns in it. -/
theorem ofSexp_list_eq_ok {head : String} {headSpan : Span} {args : List Sexp} {span : Span}
    {p : Pattern} :
    ofSexp d (.list (.atom head headSpan :: args) span) = .ok p ↔
      ∃ subs, List.Forall₂ (fun e p => ofSexp d e = .ok p) args subs ∧
        structured head subs span = .ok p := by
  rw [ofSexp, bind_eq_ok]
  refine exists_congr fun subs => ?_
  rw [ofSexps_eq_ok]
  refine and_congr_right fun hsubs => ?_
  split
  · next hpair =>
    constructor
    · intro h
      cases h
    · intro h
      rcases structured_eq_ok.mp h with ⟨-, first, second, rfl, -⟩ | ⟨hne, -⟩
      · exact absurd hsubs.length_eq hpair.2
      · exact absurd hpair.1 hne
  · exact mapError_eq_ok

/-- The pattern that `ofSexp` reads from a form is what the form writes. -/
theorem OfSexp.of_ofSexp {e : Sexp} {p : Pattern} (h : ofSexp d e = .ok p) : OfSexp d e p := by
  induction e generalizing p with
  | atom text span =>
    obtain ⟨hdigits, rfl⟩ := Declared.converted_eq_ok.mp h
    exact .atom hdigits
  | list items span ih =>
    match items with
    | [] => cases h
    | .list _ _ :: _ => cases h
    | .atom head headSpan :: args =>
      obtain ⟨subs, hsubs, h⟩ := ofSexp_list_eq_ok.mp h
      have hargs := forall₂_imp_of_mem hsubs fun e he _ => ih e (List.mem_cons_of_mem _ he)
      rcases structured_eq_ok.mp h with ⟨rfl, first, second, rfl, rfl⟩ | ⟨hname, rfl⟩
      · obtain ⟨e, es, hfirst, hrest, rfl⟩ := List.forall₂_cons_right_iff.mp hargs
        obtain ⟨e', es, hsecond, hnil, rfl⟩ := List.forall₂_cons_right_iff.mp hrest
        cases hnil
        exact .pair hfirst hsecond
      · exact .construct hname (.of_forall₂ hargs)

mutual

/-- The pattern that a form writes is read from it. -/
theorem OfSexp.ofSexp_eq : ∀ {e : Sexp} {p : Pattern}, OfSexp d e p → ofSexp d e = .ok p
  | _, _, .atom hdigits => Declared.converted_eq_ok.mpr ⟨hdigits, rfl⟩
  | _, _, .pair hfirst hsecond =>
    ofSexp_list_eq_ok.mpr ⟨_, .cons hfirst.ofSexp_eq (.cons hsecond.ofSexp_eq .nil),
      structured_eq_ok.mpr (.inl ⟨rfl, _, _, rfl, rfl⟩)⟩
  | _, _, .construct hname hargs =>
    ofSexp_list_eq_ok.mpr ⟨_, ofSexps_eq_ok.mp hargs.ofSexps_eq,
      structured_eq_ok.mpr (.inr ⟨hname, rfl⟩)⟩

theorem OfSexps.ofSexps_eq : ∀ {es : List Sexp} {ps : List Pattern}, OfSexps d es ps →
    ofSexps d es = .ok ps
  | _, _, .nil => rfl
  | _, _, .cons h hs => ofSexps_eq_ok.mpr (.cons h.ofSexp_eq (ofSexps_eq_ok.mp hs.ofSexps_eq))

end

theorem OfSexps.length_eq {es : List Sexp} {ps : List Pattern} (h : OfSexps d es ps) :
    es.length = ps.length :=
  (ofSexps_eq_ok.mp h.ofSexps_eq).length_eq

theorem OfSexps.of_ofSexps {es : List Sexp} {ps : List Pattern} (h : ofSexps d es = .ok ps) :
    OfSexps d es ps :=
  .of_forall₂ ((ofSexps_eq_ok.mp h).imp fun _ _ => OfSexp.of_ofSexp)

/-- `Pattern.ofSexp` has the pattern that the form writes, by the rules of `OfSexp`. -/
theorem ofSexp_eq_ok {e : Sexp} {p : Pattern} : ofSexp d e = .ok p ↔ OfSexp d e p :=
  ⟨OfSexp.of_ofSexp, OfSexp.ofSexp_eq⟩

end Pattern

/-! ### Expressions -/

/-- The forms at the second, fourth, sixth and so on place. -/
def armBranches : List Sexp → List Sexp
  | _ :: branch :: arms => branch :: armBranches arms
  | _ => []

theorem mem_of_mem_arms {arms : List Sexp} {e : Sexp} :
    e ∈ armPatterns arms ∨ e ∈ armBranches arms → e ∈ arms := by
  induction arms using armBranches.induct with
  | case1 _ branch arms ih => grind [armPatterns, armBranches]
  | case2 arms h =>
    match arms, h with
    | [], _ => simp [armPatterns, armBranches]
    | [_], _ => simp [armPatterns, armBranches]
    | a :: b :: rest, h => exact absurd rfl (h a b rest)

theorem length_armPatterns (arms : List Sexp) :
    (armPatterns arms).length = (armBranches arms).length := by
  induction arms using armBranches.induct with
  | case1 _ branch arms ih => simp [armPatterns, armBranches, ih]
  | case2 arms h =>
    match arms, h with
    | [], _ => rfl
    | [_], _ => rfl
    | a :: b :: rest, h => exact absurd rfl (h a b rest)

namespace Expr

mutual

/-- The form writes the expression, after the declarations `d`. -/
inductive OfSexp (d : Declared) : Sexp → Expr → Prop
  /-- What an atom writes that has not too many digits. -/
  | atom {text : String} {span : Span} (hdigits : d.exceeded? text = none) :
    OfSexp d (.atom text span) (ofAtom d text span)
  | binary {head left right : Sexp} {span : Span} {op : BinaryOp} {x y : Expr}
    (hhead : Head.of d head = .binary op) (hleft : OfSexp d left x) (hright : OfSexp d right y) :
    OfSexp d (.list [head, left, right] span) (.binary op x y span)
  | not {head operand : Sexp} {span : Span} {x : Expr} (hhead : Head.of d head = .not)
    (hoperand : OfSexp d operand x) : OfSexp d (.list [head, operand] span) (.not x span)
  | fst {head operand : Sexp} {span : Span} {x : Expr} (hhead : Head.of d head = .fst)
    (hoperand : OfSexp d operand x) : OfSexp d (.list [head, operand] span) (.fst x span)
  | snd {head operand : Sexp} {span : Span} {x : Expr} (hhead : Head.of d head = .snd)
    (hoperand : OfSexp d operand x) : OfSexp d (.list [head, operand] span) (.snd x span)
  | cond {head condition thenBranch elseBranch : Sexp} {span : Span} {x y z : Expr}
    (hhead : Head.of d head = .cond) (hcondition : OfSexp d condition x)
    (hthen : OfSexp d thenBranch y) (helse : OfSexp d elseBranch z) :
    OfSexp d (.list [head, condition, thenBranch, elseBranch] span) (.cond x y z span)
  /-- A function with its parameter, the type of that, and its body. -/
  | lambda {head paramTy body : Sexp} {param : String} {paramSpan span : Span} {ty : Ty} {x : Expr}
    (hhead : Head.of d head = .lambda) (hparamTy : Ty.OfSexp d paramTy ty)
    (hbody : OfSexp d body x) :
    OfSexp d (.list [head, .atom param paramSpan, paramTy, body] span) (.lambda param ty x span)
  | pair {head first second : Sexp} {span : Span} {x y : Expr} (hhead : Head.of d head = .pair)
    (hfirst : OfSexp d first x) (hsecond : OfSexp d second y) :
    OfSexp d (.list [head, first, second] span) (.pair x y span)
  /-- A choice by patterns, whose arms pair up. -/
  | cases {head scrutinee : Sexp} {arms : List Sexp} {armsSpan span : Span} {x : Expr}
    {ps : List Pattern} {xs : List Expr} (hhead : Head.of d head = .cases)
    (heven : arms.length % 2 = 0) (hscrutinee : OfSexp d scrutinee x)
    (hpatterns : Pattern.OfSexps d (armPatterns arms) ps)
    (hbranches : OfSexps d (armBranches arms) xs) :
    OfSexp d (.list [head, scrutinee, .list arms armsSpan] span) (.cases x ps xs span)
  | construct {head : Sexp} {args : List Sexp} {span : Span} {name : String} {xs : List Expr}
    (hhead : Head.of d head = .construct name) (hargs : OfSexps d args xs) :
    OfSexp d (.list (head :: args) span) (.construct name xs span)
  | app {head : Sexp} {args : List Sexp} {span : Span} {x : Expr} {xs : List Expr}
    (happ : Head.of d head = .app) (hhead : OfSexp d head x) (hargs : OfSexps d args xs) :
    OfSexp d (.list (head :: args) span) (.app x xs span)

/-- The forms write the expressions, one by one. -/
inductive OfSexps (d : Declared) : List Sexp → List Expr → Prop
  | nil : OfSexps d [] []
  | cons {e : Sexp} {es : List Sexp} {x : Expr} {xs : List Expr} (h : OfSexp d e x)
    (hs : OfSexps d es xs) : OfSexps d (e :: es) (x :: xs)

end

/-- `Expr.ofSexps` reads expressions one by one. -/
theorem ofSexps_eq_mapM (es : List Sexp) : ofSexps d es = es.mapM (ofSexp d) := by
  induction es with
  | nil => rfl
  | cons e es ih => rw [ofSexps, ih, List.mapM_cons]

theorem ofSexps_eq_ok {es : List Sexp} {xs : List Expr} :
    ofSexps d es = .ok xs ↔ List.Forall₂ (fun e x => ofSexp d e = .ok x) es xs := by
  rw [ofSexps_eq_mapM, mapM_eq_ok]

/-- `ofArms` reads the branches of a match one by one. -/
theorem ofArms_eq_ofSexps (arms : List Sexp) : ofArms d arms = ofSexps d (armBranches arms) := by
  induction arms using armBranches.induct with
  | case1 _ branch arms ih => rw [ofArms, armBranches, ofSexps, ih]
  | case2 arms h =>
    match arms, h with
    | [], _ => rfl
    | [_], _ => rfl
    | a :: b :: rest, h => exact absurd rfl (h a b rest)

theorem OfSexps.of_forall₂ {es : List Sexp} {xs : List Expr} (h : List.Forall₂ (OfSexp d) es xs) :
    OfSexps d es xs := by
  induction h with
  | nil => exact .nil
  | cons h _ ih => exact .cons h ih

/-- The expression that `ofSexp` reads from a form is what the form writes. -/
theorem OfSexp.of_ofSexp {e : Sexp} {x : Expr} (h : ofSexp d e = .ok x) : OfSexp d e x := by
  induction e using Sexp.deepInduction generalizing x with
  | atom text span =>
    obtain ⟨hdigits, rfl⟩ := Declared.converted_eq_ok.mp h
    exact .atom hdigits
  | list items span ih ihInner =>
    cases items with
    | nil => cases h
    | cons head args =>
      have ihAll {xs : List Expr} (h : ofSexps d args = .ok xs) : OfSexps d args xs :=
        .of_forall₂ <| forall₂_imp_of_mem (ofSexps_eq_ok.mp h) fun e he _ =>
          ih e (List.mem_cons_of_mem _ he)
      rw [ofSexp.eq_def] at h
      dsimp only at h
      split at h
      · next op left right hhead =>
        obtain ⟨x, hleft, h⟩ := bind_eq_ok.mp h
        obtain ⟨y, hright, h⟩ := bind_eq_ok.mp h
        cases h
        exact .binary hhead (ih left (by simp) hleft) (ih right (by simp) hright)
      · cases h
      · next operand hhead =>
        obtain ⟨x, hoperand, h⟩ := bind_eq_ok.mp h
        cases h
        exact .not hhead (ih operand (by simp) hoperand)
      · cases h
      · next operand hhead =>
        obtain ⟨x, hoperand, h⟩ := bind_eq_ok.mp h
        cases h
        exact .fst hhead (ih operand (by simp) hoperand)
      · cases h
      · next operand hhead =>
        obtain ⟨x, hoperand, h⟩ := bind_eq_ok.mp h
        cases h
        exact .snd hhead (ih operand (by simp) hoperand)
      · cases h
      · next condition thenBranch elseBranch hhead =>
        obtain ⟨x, hcondition, h⟩ := bind_eq_ok.mp h
        obtain ⟨y, hthen, h⟩ := bind_eq_ok.mp h
        obtain ⟨z, helse, h⟩ := bind_eq_ok.mp h
        cases h
        exact .cond hhead (ih condition (by simp) hcondition) (ih thenBranch (by simp) hthen)
          (ih elseBranch (by simp) helse)
      · cases h
      · next param paramSpan paramTy body hhead =>
        obtain ⟨ty, hparamTy, h⟩ := bind_eq_ok.mp h
        obtain ⟨x, hbody, h⟩ := bind_eq_ok.mp h
        cases h
        exact .lambda hhead (.of_ofSexp hparamTy) (ih body (by simp) hbody)
      · cases h
      · cases h
      · next first second hhead =>
        obtain ⟨x, hfirst, h⟩ := bind_eq_ok.mp h
        obtain ⟨y, hsecond, h⟩ := bind_eq_ok.mp h
        cases h
        exact .pair hhead (ih first (by simp) hfirst) (ih second (by simp) hsecond)
      · cases h
      · cases h
      · next scrutinee arms armsSpan hhead =>
        split at h
        · cases h
        · next heven =>
          obtain ⟨ps, hpatterns, h⟩ := bind_eq_ok.mp h
          obtain ⟨xs, hbranches, h⟩ := bind_eq_ok.mp h
          obtain ⟨x, hscrutinee, h⟩ := bind_eq_ok.mp h
          cases h
          rw [ofArms_eq_ofSexps] at hbranches
          have hbranches := forall₂_imp_of_mem (ofSexps_eq_ok.mp hbranches) fun e he _ =>
            ihInner arms armsSpan (by simp) e (mem_of_mem_arms (.inr he))
          exact .cases hhead (not_not.mp heven) (ih scrutinee (by simp) hscrutinee)
            (.of_ofSexps hpatterns) (.of_forall₂ hbranches)
      · cases h
      · next name hhead =>
        obtain ⟨xs, hargs, h⟩ := bind_eq_ok.mp h
        cases h
        exact .construct hhead (ihAll hargs)
      · next happ =>
        obtain ⟨x, hhead, h⟩ := bind_eq_ok.mp h
        obtain ⟨xs, hargs, h⟩ := bind_eq_ok.mp h
        cases h
        exact .app happ (ih head List.mem_cons_self hhead) (ihAll hargs)

mutual

/-- The expression that a form writes is read from it. -/
theorem OfSexp.ofSexp_eq : ∀ {e : Sexp} {x : Expr}, OfSexp d e x → ofSexp d e = .ok x
  | _, _, .atom hdigits => Declared.converted_eq_ok.mpr ⟨hdigits, rfl⟩
  | _, _, .binary hhead hleft hright => by
    rw [ofSexp.eq_def]
    simp only [hhead, hleft.ofSexp_eq, hright.ofSexp_eq]
    rfl
  | _, _, .not hhead hoperand => by
    simp only [ofSexp, hhead, hoperand.ofSexp_eq]
    rfl
  | _, _, .fst hhead hoperand => by
    simp only [ofSexp, hhead, hoperand.ofSexp_eq]
    rfl
  | _, _, .snd hhead hoperand => by
    simp only [ofSexp, hhead, hoperand.ofSexp_eq]
    rfl
  | _, _, .cond hhead hcondition hthen helse => by
    simp only [ofSexp, hhead, hcondition.ofSexp_eq, hthen.ofSexp_eq, helse.ofSexp_eq]
    rfl
  | _, _, .lambda hhead hparamTy hbody => by
    simp only [ofSexp, hhead, hparamTy.ofSexp_eq, hbody.ofSexp_eq]
    rfl
  | _, _, .pair hhead hfirst hsecond => by
    simp only [ofSexp, hhead, hfirst.ofSexp_eq, hsecond.ofSexp_eq]
    rfl
  | _, _, .cases hhead heven hscrutinee hpatterns hbranches => by
    simp only [ofSexp, hhead, heven, ofArms_eq_ofSexps, hpatterns.ofSexps_eq, hbranches.ofSexps_eq,
      hscrutinee.ofSexp_eq]
    rfl
  | _, _, .construct hhead hargs => by
    rw [ofSexp.eq_def]
    simp only [hhead, hargs.ofSexps_eq]
    rfl
  | _, _, .app happ hhead hargs => by
    simp only [ofSexp, happ, hhead.ofSexp_eq, hargs.ofSexps_eq]
    rfl

theorem OfSexps.ofSexps_eq : ∀ {es : List Sexp} {xs : List Expr}, OfSexps d es xs →
    ofSexps d es = .ok xs
  | _, _, .nil => rfl
  | _, _, .cons h hs => ofSexps_eq_ok.mpr (.cons h.ofSexp_eq (ofSexps_eq_ok.mp hs.ofSexps_eq))

end

theorem OfSexps.length_eq {es : List Sexp} {xs : List Expr} (h : OfSexps d es xs) :
    es.length = xs.length :=
  (ofSexps_eq_ok.mp h.ofSexps_eq).length_eq

/-- `Expr.ofSexp` has the expression that the form writes, by the rules of `OfSexp`. -/
theorem ofSexp_eq_ok {e : Sexp} {x : Expr} : ofSexp d e = .ok x ↔ OfSexp d e x :=
  ⟨OfSexp.of_ofSexp, OfSexp.ofSexp_eq⟩

end Expr

end Casewise
