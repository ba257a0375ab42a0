import Casewise.Proofs.Reading.Statements
import Casewise.Proofs.Spans.Syntax

/-!
# Reading forms in another place

What a form means does not depend on where it stands: the same form in another place reads as the
same type, pattern, expression or statement in that place, and declares the same.

## Main statements

* `Expr.OfSexp.mapSpans`: what a form writes in another place.
* `Stmt.ofSexp_mapSpans`, `Program.mapM_mapSpans`: reading statements in another place.
-/

namespace Casewise

variable {d d' : Declared} {f : Span → Span}

/-! ### Types -/

mutual

/-- Under `Sexp.mapSpans`, a form writes the same type. -/
theorem Ty.OfSexp.mapSpans : ∀ {e : Sexp} {ty : Ty}, OfSexp d e ty → OfSexp d (e.mapSpans f) ty
  | _, _, .builtin h => .builtin h
  | _, _, .data hbuiltin hmem => .data hbuiltin hmem
  | _, _, .arrow hne hargs => .arrow hne hargs.mapSpansAll
  | _, _, .pair hfirst hsecond => .pair hfirst.mapSpans hsecond.mapSpans

theorem Ty.OfSexps.mapSpansAll : ∀ {es : List Sexp} {tys : List Ty}, OfSexps d es tys →
    OfSexps d (Sexp.mapSpansAll f es) tys
  | _, _, .nil => .nil
  | _, _, .cons h hs => .cons h.mapSpans hs.mapSpansAll

end

/-! ### Patterns -/

/-- `Pattern.ofAtom` reads the same pattern in another place. -/
theorem Pattern.ofAtom_mapSpans (nullary : String → Bool) (text : String) (span : Option Span) :
    (Pattern.ofAtom nullary text span).mapSpans f = Pattern.ofAtom nullary text (span.map f) := by
  rw [Pattern.ofAtom, Pattern.ofAtom]
  split
  · rfl
  · cases Text.decimal? text with
    | some value => rfl
    | none =>
      dsimp only
      split
      · rfl
      · split
        · rfl
        · split
          · rfl
          · split <;> rfl

mutual

/-- Under `Sexp.mapSpans`, a form writes the same pattern, in its new place. -/
theorem Pattern.OfSexp.mapSpans : ∀ {e : Sexp} {p : Pattern}, OfSexp d e p →
    OfSexp d (e.mapSpans f) (p.mapSpans f)
  | _, _, .atom hdigits => by
    rw [Pattern.ofAtom_mapSpans]
    exact .atom hdigits
  | _, _, .pair hfirst hsecond => .pair hfirst.mapSpans hsecond.mapSpans
  | _, _, .construct hname hargs => .construct hname hargs.mapSpansAll

theorem Pattern.OfSexps.mapSpansAll : ∀ {es : List Sexp} {ps : List Pattern}, OfSexps d es ps →
    OfSexps d (Sexp.mapSpansAll f es) (Pattern.mapSpansAll f ps)
  | _, _, .nil => .nil
  | _, _, .cons h hs => .cons h.mapSpans hs.mapSpansAll

end

/-! ### Expressions -/

theorem Expr.ofAtom_mapSpans (d : Declared) (text : String) (span : Option Span) :
    (Expr.ofAtom d text span).mapSpans f f = Expr.ofAtom d text (span.map f) := by
  rw [Expr.ofAtom, Expr.ofAtom]
  split
  · rfl
  · split
    · rfl
    · cases Text.decimal? text with
      | some value => rfl
      | none =>
        dsimp only
        split <;> rfl

theorem Head.of_mapSpans (d : Declared) (e : Sexp) : Head.of d (e.mapSpans f) = Head.of d e := by
  cases e <;> rfl

theorem arms_mapSpansAll (arms : List Sexp) :
    armPatterns (Sexp.mapSpansAll f arms) = Sexp.mapSpansAll f (armPatterns arms) ∧
      armBranches (Sexp.mapSpansAll f arms) = Sexp.mapSpansAll f (armBranches arms) := by
  induction arms using armBranches.induct with
  | case1 pattern branch arms ih =>
    obtain ⟨hpatterns, hbranches⟩ := ih
    simp only [Sexp.mapSpansAll, armPatterns, armBranches, hpatterns, hbranches, and_self]
  | case2 arms h =>
    rcases arms with _ | ⟨a, _ | ⟨b, rest⟩⟩
    · exact ⟨rfl, rfl⟩
    · exact ⟨rfl, rfl⟩
    · exact absurd rfl (h a b rest)

mutual

/-- Under `Sexp.mapSpans`, a form writes the same expression, in its new place: its head decides the
form, and the head is the same there. -/
theorem Expr.OfSexp.mapSpans : ∀ {e : Sexp} {x : Expr}, OfSexp d e x →
    OfSexp d (e.mapSpans f) (x.mapSpans f f)
  | _, _, .atom hdigits => by
    rw [Expr.ofAtom_mapSpans]
    exact .atom hdigits
  | _, _, .binary hhead hleft hright =>
    .binary ((Head.of_mapSpans d _).trans hhead) hleft.mapSpans hright.mapSpans
  | _, _, .not hhead hoperand => .not ((Head.of_mapSpans d _).trans hhead) hoperand.mapSpans
  | _, _, .fst hhead hoperand => .fst ((Head.of_mapSpans d _).trans hhead) hoperand.mapSpans
  | _, _, .snd hhead hoperand => .snd ((Head.of_mapSpans d _).trans hhead) hoperand.mapSpans
  | _, _, .cond hhead hcondition hthen helse =>
    .cond ((Head.of_mapSpans d _).trans hhead) hcondition.mapSpans hthen.mapSpans helse.mapSpans
  | _, _, .lambda hhead hparamTy hbody =>
    .lambda ((Head.of_mapSpans d _).trans hhead) hparamTy.mapSpans hbody.mapSpans
  | _, _, .pair hhead hfirst hsecond =>
    .pair ((Head.of_mapSpans d _).trans hhead) hfirst.mapSpans hsecond.mapSpans
  | _, _, @OfSexp.cases _ _ _ arms _ _ _ _ _ hhead heven hscrutinee hpatterns hbranches => by
    obtain ⟨hpatternForms, hbranchForms⟩ := arms_mapSpansAll (f := f) arms
    refine .cases ((Head.of_mapSpans d _).trans hhead) ?_ hscrutinee.mapSpans ?_ ?_
    · rwa [Sexp.mapSpansAll_eq_map, List.length_map]
    · rw [hpatternForms]
      exact hpatterns.mapSpansAll
    · rw [hbranchForms]
      exact hbranches.mapSpansAll
  | _, _, .construct hhead hargs =>
    .construct ((Head.of_mapSpans d _).trans hhead) hargs.mapSpansAll
  | _, _, .app happ hhead hargs =>
    .app ((Head.of_mapSpans d _).trans happ) hhead.mapSpans hargs.mapSpansAll

theorem Expr.OfSexps.mapSpansAll : ∀ {es : List Sexp} {xs : List Expr}, OfSexps d es xs →
    OfSexps d (Sexp.mapSpansAll f es) (Expr.mapSpansAll f f xs)
  | _, _, .nil => .nil
  | _, _, .cons h hs => .cons h.mapSpans hs.mapSpansAll

end

/-! ### Statements -/

/-- Under `Sexp.mapSpans`, a form writes the same constructor, in its new place. -/
theorem ConstructorDecl.OfSexp.mapSpans {e : Sexp} {c : ConstructorDecl} (h : OfSexp d e c) :
    OfSexp d (e.mapSpans f) (c.mapSpan f) := by
  cases h with
  | atom name span => exact .atom name (f span)
  | list hfields => exact .list hfields.mapSpansAll

/-- Under `Sexp.mapSpans`, a form writes the same statement, in its new place. -/
theorem Stmt.OfSexp.mapSpans {e : Sexp} {s : Stmt} (h : OfSexp d e s) :
    OfSexp d (e.mapSpans f) (s.mapSpans f f) := by
  cases h with
  | define hvalue => exact .define hvalue.mapSpans
  | assign htarget hvalue => exact .assign htarget.mapSpans hvalue.mapSpans
  | print hvalue => exact .print hvalue.mapSpans
  | data hforms =>
    refine .data ?_
    rw [Sexp.mapSpansAll_eq_map, List.forall₂_map_left_iff, List.forall₂_map_right_iff]
    exact hforms.imp fun _ _ => ConstructorDecl.OfSexp.mapSpans

theorem Declared.after_mapSpans (d : Declared) (s : Stmt) :
    d.after (s.mapSpans f f) = d.after s := by
  cases s with
  | data name constructors span =>
    rw [Stmt.mapSpans, after, after, addConstructors, addConstructors, List.foldl_map]
    rfl
  | _ => rfl

/-- `Stmt.ofSexp` reads a statement in another place, and it declares the same there. -/
theorem Stmt.ofSexp_mapSpans {e : Sexp} {s : Stmt} (h : outcome (Stmt.ofSexp e) d = (.ok s, d')) :
    outcome (Stmt.ofSexp (e.mapSpans f)) d = (.ok (s.mapSpans f f), d') := by
  obtain ⟨hs, rfl⟩ := Stmt.outcome_ofSexp_eq_ok.mp h
  exact Stmt.outcome_ofSexp_eq_ok.mpr ⟨hs.mapSpans, (Declared.after_mapSpans d s).symm⟩

/-! ### Programs -/

/-- `Stmt.ofSexp` reads the statements of a program in another place, and they declare the same
there. -/
theorem Program.mapM_mapSpans {es : List Sexp} {p : Program}
    (h : outcome (es.mapM Stmt.ofSexp) d = (.ok p, d')) :
    outcome ((es.map (Sexp.mapSpans f)).mapM Stmt.ofSexp) d = (.ok (p.mapSpans f), d') := by
  induction es generalizing d p with
  | nil =>
    cases h
    rfl
  | cons e es ih =>
    obtain ⟨s, d₁, q, hs, hq, rfl⟩ := outcome_mapM_cons_eq_ok.mp h
    exact outcome_mapM_cons_eq_ok.mpr ⟨_, d₁, _, Stmt.ofSexp_mapSpans hs, ih hq, rfl⟩

theorem Program.mapM_append {es es' : List Sexp} {d₁ : Declared} {p q : Program}
    (hp : outcome (es.mapM Stmt.ofSexp) d = (.ok p, d₁))
    (hq : outcome (es'.mapM Stmt.ofSexp) d₁ = (.ok q, d')) :
    outcome ((es ++ es').mapM Stmt.ofSexp) d = (.ok (p ++ q), d') := by
  induction es generalizing d p with
  | nil =>
    cases hp
    exact hq
  | cons e es ih =>
    obtain ⟨s, d₂, p, hs, hrest, rfl⟩ := outcome_mapM_cons_eq_ok.mp hp
    exact outcome_mapM_cons_eq_ok.mpr ⟨s, d₂, _, hs, ih hrest, rfl⟩

end Casewise
