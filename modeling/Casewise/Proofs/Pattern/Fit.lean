import Casewise.Pattern.Fit
import Casewise.Proofs.Scope.Registry

/-!
# What matching does to the names bound so far

Matching only adds names, at the end of the table: the first of those that the pattern binds, and
all of them if it fits. An answer that it gives does not change when further data types are
declared. Both are said of single steps first, and of whole patterns by going through them.

## Main definitions

* `Pattern.names`: the names that a pattern binds.
* `Fitting.Binds`: matches that add some of the given names.
* `Fitting.Confirms`: matches that give the answers that another one gives.

## Main statements

* `Pattern.outcome_pair_eq_fits`, `Pattern.outcome_construct_eq_fits`: when pairs and constructors
  fit.
* `Pattern.binds_fit`: a pattern adds its names.
* `Pattern.names_of_bindings?`: a pattern that fits binds its names.
* `Pattern.confirms_fit`: an answer stays when the registry grows.
* `Pattern.bindings?_eq_ok`: what the answer of `Pattern.bindings?` says about the matching.
-/

namespace Casewise

variable {σ : Type}

theorem outcome_andThen (x y : Fitting σ Bool) (t : Table σ) :
    outcome (do if ← x then y else pure false) t =
      match outcome x t with
      | (.ok true, t') => outcome y t'
      | (.ok false, t') => (.ok false, t')
      | (.error e, t') => (.error e, t') := by
  rw [outcome_bind]
  rcases outcome x t with ⟨e | b, t'⟩
  · rfl
  · cases b <;> rfl

theorem outcome_andThen_eq_fits {x y : Fitting σ Bool} {t t'' : Table σ} :
    outcome (do if ← x then y else pure false) t = (.ok true, t'') ↔
      ∃ t', outcome x t = (.ok true, t') ∧ outcome y t' = (.ok true, t'') := by
  rw [outcome_andThen]
  rcases outcome x t with ⟨e | _ | _, t'⟩ <;> simp

theorem outcome_bindName (name : String) (s : σ) (t : Table σ) :
    outcome (do Fitting.bind name s; pure true) t =
      if t.contains name then (.error { cause := .redefinition name }, t)
      else (.ok true, t.insert name s) := by
  simp only [outcome_bind, Fitting.bind, outcome_get]
  cases h : t.contains name with
  | false => simp only [Bool.false_eq_true, if_false, outcome_set, outcome_pure]
  | true => simp only [if_true, outcome_bind, outcome_throw]

theorem outcome_bindName_eq_fits {name : String} {s : σ} {t t' : Table σ} :
    outcome (do Fitting.bind name s; pure true) t = (.ok true, t') ↔
      t.contains name = false ∧ t' = t.insert name s := by
  rw [outcome_bindName]
  cases t.contains name <;> simp [eq_comm]

/-! ### Adding names -/

namespace Fitting

/-- From whatever table it starts, the match adds names at the end of it: the first of `names`, and
all of them if it fits. -/
structure Binds (names : List String) (x : Fitting σ Bool) : Prop where
  /-- What is bound so far is kept, and comes first. -/
  kept : ∀ t, t.entries <+: (outcome x t).2.entries
  /-- However the match ends, the first of the names have been added. -/
  added : ∀ t, (outcome x t).2.names <+: t.names ++ names
  /-- If it fits, all of them have been added. -/
  added_of_fits : ∀ t t', outcome x t = (.ok true, t') → t'.names = t.names ++ names

namespace Binds

variable {names names' : List String} {x y : Fitting σ Bool}

theorem pure (b : Bool) : Binds (σ := σ) [] (pure b) where
  kept t := List.prefix_refl t.entries
  added t := List.prefix_append t.names []
  added_of_fits t t' h := by
    obtain ⟨-, rfl⟩ := Prod.mk.inj h
    exact (List.append_nil _).symm

theorem misfit (names : List String) : Binds (σ := σ) names (Pure.pure false) where
  kept t := List.prefix_refl t.entries
  added t := List.prefix_append t.names names
  added_of_fits _ _ h := nomatch h

theorem throw (names : List String) (e : LangError) : Binds (σ := σ) names (throw e) where
  kept t := List.prefix_refl t.entries
  added t := List.prefix_append t.names names
  added_of_fits _ _ h := nomatch h

theorem bindName (name : String) (s : σ) :
    Binds [name] (do Fitting.bind name s; Pure.pure true) where
  kept t := by
    rw [outcome_bindName]
    split
    · exact List.prefix_refl t.entries
    · next hnew =>
      rw [Bool.not_eq_true, Table.contains_eq_false] at hnew
      rw [Table.entries_insert_of_get?_eq_none hnew]
      exact List.prefix_append _ _
  added t := by
    rw [outcome_bindName]
    split
    · exact List.prefix_append _ _
    · next hnew =>
      rw [Table.contains_iff] at hnew
      exact (Table.names_insert_of_notMem hnew s) ▸ List.prefix_refl _
  added_of_fits t t' h := by
    obtain ⟨hnew, rfl⟩ := outcome_bindName_eq_fits.mp h
    rw [Table.contains_eq_false, Table.get?_eq_none_iff] at hnew
    exact Table.names_insert_of_notMem hnew s

/-- Two matches in turn add the names of the first and then those of the second, by `Binds`. -/
theorem andThen (hx : Binds names x) (hy : Binds names' y) :
    Binds (names ++ names') (do if ← x then y else Pure.pure false) where
  kept t := by
    have hfirst := hx.kept t
    rw [outcome_andThen]
    rcases hout : outcome x t with ⟨e | _ | _, t'⟩ <;> rw [hout] at hfirst
    · exact hfirst
    · exact hfirst
    · exact hfirst.trans (hy.kept t')
  added t := by
    have hfirst := (hx.added t).trans (List.prefix_append _ names')
    rw [outcome_andThen, ← List.append_assoc]
    rcases hout : outcome x t with ⟨e | _ | _, t'⟩ <;> rw [hout] at hfirst
    · exact hfirst
    · exact hfirst
    · rw [← hx.added_of_fits t t' hout]
      exact hy.added t'
  added_of_fits t t'' h := by
    obtain ⟨t', hfirst, hsecond⟩ := outcome_andThen_eq_fits.mp h
    rw [hy.added_of_fits t' t'' hsecond, hx.added_of_fits t t' hfirst, List.append_assoc]

end Binds

/-- Whatever answer `x` gives, `y` gives it as well, and binds the same. -/
def Confirms (x y : Fitting σ Bool) : Prop :=
  ∀ t t' b, outcome x t = (.ok b, t') → outcome y t = (.ok b, t')

namespace Confirms

variable {x x' y y' : Fitting σ Bool}

theorem refl (x : Fitting σ Bool) : Confirms x x :=
  fun _ _ _ h => h

theorem throw (e : LangError) (y : Fitting σ Bool) : Confirms (throw e) y :=
  fun _ _ _ h => nomatch h

/-- Two matches in turn give the answers of two others if each of them does, by `Confirms`. -/
theorem andThen (hx : Confirms x x') (hy : Confirms y y') :
    Confirms (do if ← x then y else pure false) (do if ← x' then y' else pure false) := by
  intro t t'' b h
  rw [outcome_andThen] at h ⊢
  rcases hout : outcome x t with ⟨e | _ | _, t'⟩ <;> rw [hout] at h
  · cases h
  · rw [hx t t' false hout]
    exact h
  · rw [hx t t' true hout]
    exact hy t' t'' b h

end Confirms

end Fitting

/-! ### Whole patterns -/

namespace Pattern

variable [Subject σ] {R R' : Registry}

/-- A pair pattern fits pairs whose `Subject.components?` fit in turn. -/
theorem outcome_pair_eq_fits {p q : Pattern} {span : Option Span} {s : σ} {t t'' : Table σ} :
    outcome ((pair p q span).fit R s) t = (.ok true, t'') ↔
      ∃ a b t', Subject.components? s = some (a, b) ∧ outcome (p.fit R a) t = (.ok true, t') ∧
        outcome (q.fit R b) t' = (.ok true, t'') := by
  rw [fit]
  cases Subject.components? s with
  | none => simp
  | some parts =>
    obtain ⟨a, b⟩ := parts
    refine outcome_andThen_eq_fits.trans ⟨?_, ?_⟩
    · rintro ⟨t', hp, hq⟩
      exact ⟨a, b, t', rfl, hp, hq⟩
    · rintro ⟨a', b', t', hparts, hp, hq⟩
      cases hparts
      exact ⟨t', hp, hq⟩

/-- A constructor pattern with as many parts as are declared fits what the constructor has built
from as many fields, if these fit the parts one by one, as `fitAll` says. -/
theorem outcome_construct_eq_fits {name : String} {args : List Pattern} {span : Option Span} {s : σ}
    {t t' : Table σ} :
    outcome ((construct name args span).fit R s) t = (.ok true, t') ↔
      ∃ info fields, R.constructor? name = some info ∧ args.length = info.arity ∧
        Subject.fields? s info = some fields ∧ fields.length = args.length ∧
          outcome (fitAll R args fields) t = (.ok true, t') := by
  rw [fit]
  cases R.constructor? name with
  | none => simp
  | some info =>
    by_cases harity : args.length = info.arity
    · cases hfields : Subject.fields? s info with
      | none => simp [harity, hfields]
      | some fields =>
        by_cases hlength : fields.length = args.length <;> simp_all
    · simp [harity]

mutual

/-- The names that the pattern binds, from left to right. -/
def names : Pattern → List String
  | binding name _ => [name]
  | construct _ args _ => namesAll args
  | pair first second _ => names first ++ names second
  | wildcard _ | number .. | boolean .. | string .. => []

/-- The names that the patterns bind, from left to right. -/
def namesAll : List Pattern → List String
  | [] => []
  | p :: ps => names p ++ namesAll ps

end

mutual

/-- Matching adds `Pattern.names`. -/
theorem binds_fit (R : Registry) : ∀ (p : Pattern) (s : σ), Fitting.Binds p.names (p.fit R s)
  | wildcard _, _ => .pure _
  | number .., _ => .pure _
  | boolean .., _ => .pure _
  | string .., _ => .pure _
  | binding name _, s => .bindName name s
  | pair first second _, s => by
    rw [fit]
    cases Subject.components? s with
    | none => exact .misfit _
    | some parts => exact .andThen (binds_fit R first parts.1) (binds_fit R second parts.2)
  | construct name args _, s => by
    rw [fit]
    cases R.constructor? name with
    | none => exact .throw _ _
    | some info =>
      dsimp only
      split
      · exact .throw _ _
      · cases Subject.fields? s info with
        | none => exact .misfit _
        | some fields =>
          dsimp only
          split
          · exact .throw _ _
          · next hlength =>
            have hargs := binds_fitAll R args fields
            rwa [not_not.mp hlength, List.take_length] at hargs

theorem binds_fitAll (R : Registry) : ∀ (ps : List Pattern) (ss : List σ),
    Fitting.Binds (namesAll (ps.take ss.length)) (fitAll R ps ss)
  | [], ss => by
    rw [List.take_nil]
    exact .pure _
  | _ :: _, [] => .pure _
  | p :: ps, s :: ss => .andThen (binds_fit R p s) (binds_fitAll R ps ss)

end

theorem names_prefix_fit (R : Registry) (p : Pattern) (s : σ) (t : Table σ) :
    t.names <+: (outcome (p.fit R s) t).2.names :=
  ((binds_fit R p s).kept t).map Prod.fst

theorem names_prefix_fitAll (R : Registry) (ps : List Pattern) (ss : List σ) (t : Table σ) :
    t.names <+: (outcome (fitAll R ps ss) t).2.names :=
  ((binds_fitAll R ps ss).kept t).map Prod.fst

theorem get?_of_fit {p : Pattern} {s : σ} {t t' : Table σ} {r : Except LangError Bool}
    (h : outcome (p.fit R s) t = (r, t')) {name : String} {a : σ} (ha : t.get? name = some a) :
    t'.get? name = some a := by
  have hkept := (binds_fit R p s).kept t
  rw [h] at hkept
  exact Table.get?_of_prefix hkept ha

theorem get?_of_fitAll {ps : List Pattern} {ss : List σ} {t t' : Table σ}
    {r : Except LangError Bool} (h : outcome (fitAll R ps ss) t = (r, t')) {name : String} {a : σ}
    (ha : t.get? name = some a) : t'.get? name = some a := by
  have hkept := (binds_fitAll R ps ss).kept t
  rw [h] at hkept
  exact Table.get?_of_prefix hkept ha

theorem names_of_fit {p : Pattern} {s : σ} {t t' : Table σ}
    (h : outcome (p.fit R s) t = (.ok true, t')) : t'.names = t.names ++ p.names :=
  (binds_fit R p s).added_of_fits t t' h

theorem fit_leaves_of_names_eq_nil {p : Pattern} (h : p.names = []) (R : Registry) (s : σ)
    (t : Table σ) : (outcome (p.fit R s) t).2 = t := by
  have hbinds := binds_fit R p s
  have hnames := hbinds.added t
  rw [h, List.append_nil] at hnames
  have hlength := hnames.length_le
  rw [Table.names, Table.names, List.length_map, List.length_map] at hlength
  exact Table.ext ((hbinds.kept t).eq_of_length_le hlength).symm

mutual

/-- An answer of `fit` stays the same when the registry grows. -/
theorem confirms_fit (hR : R ≤ R') :
    ∀ (p : Pattern) (s : σ), Fitting.Confirms (p.fit R s) (p.fit R' s)
  | wildcard _, _ => .refl _
  | number .., _ => .refl _
  | boolean .., _ => .refl _
  | string .., _ => .refl _
  | binding .., _ => .refl _
  | pair first second _, s => by
    rw [fit, fit]
    cases Subject.components? s with
    | none => exact .refl _
    | some parts => exact .andThen (confirms_fit hR first parts.1) (confirms_fit hR second parts.2)
  | construct name args _, s => by
    rw [fit, fit]
    cases hinfo : R.constructor? name with
    | none => exact .throw _ _
    | some info =>
      rw [hR _ _ hinfo]
      dsimp only
      split
      · exact .throw _ _
      · cases Subject.fields? s info with
        | none => exact .refl _
        | some fields =>
          dsimp only
          split
          · exact .throw _ _
          · exact confirms_fitAll hR args fields

theorem confirms_fitAll (hR : R ≤ R') :
    ∀ (ps : List Pattern) (ss : List σ), Fitting.Confirms (fitAll R ps ss) (fitAll R' ps ss)
  | [], _ => .refl _
  | _ :: _, [] => .refl _
  | p :: ps, s :: ss => .andThen (confirms_fit hR p s) (confirms_fitAll hR ps ss)

end

/-- `bindings?` is `fit` on a fresh table, with the outcome in one place. -/
theorem bindings?_eq (R : Registry) (p : Pattern) (s : σ) :
    p.bindings? R s =
      (located p.span (outcome (p.fit R s) ∅).1).map fun fits =>
        if fits then some (outcome (p.fit R s) ∅).2 else none :=
  rfl

/-- What `bindings?` finds is what `fit` says on a fresh table. -/
theorem bindings?_eq_ok {p : Pattern} {s : σ} {found : Option (Table σ)} :
    p.bindings? R s = .ok found ↔
      ∃ fits, (outcome (p.fit R s) ∅).1 = .ok fits ∧
        found = if fits then some (outcome (p.fit R s) ∅).2 else none := by
  rw [bindings?_eq]
  constructor
  · intro h
    cases hfit : (outcome (p.fit R s) ∅).1 with
    | error e =>
      rw [hfit] at h
      cases h
    | ok fits =>
      rw [hfit] at h
      cases h
      exact ⟨fits, rfl, rfl⟩
  · rintro ⟨fits, hfit, rfl⟩
    rw [hfit]
    rfl

/-- A pattern binds the names of the table `bound` if `fit` on a fresh table fits and leaves that
table. -/
theorem bindings?_eq_some {p : Pattern} {s : σ} {bound : Table σ} :
    p.bindings? R s = .ok (some bound) ↔ outcome (p.fit R s) ∅ = (.ok true, bound) := by
  rw [bindings?_eq_ok]
  constructor
  · rintro ⟨fits, hfit, hbound⟩
    cases fits with
    | true =>
      cases hbound
      exact Prod.ext hfit rfl
    | false => cases hbound
  · intro h
    rw [h]
    exact ⟨true, rfl, rfl⟩

/-- A pattern that fits binds `Pattern.names`, from left to right. -/
theorem names_of_bindings? {p : Pattern} {s : σ} {bound : Table σ}
    (h : p.bindings? R s = .ok (some bound)) : bound.names = p.names :=
  names_of_fit (bindings?_eq_some.mp h)

theorem bindings?_eq_none {p : Pattern} {s : σ} :
    p.bindings? R s = .ok none ↔ (outcome (p.fit R s) ∅).1 = .ok false := by
  rw [bindings?_eq_ok]
  constructor
  · rintro ⟨fits, hfit, hbound⟩
    cases fits with
    | true => cases hbound
    | false => exact hfit
  · intro h
    exact ⟨false, h, rfl⟩

theorem bindings?_of_le (hR : R ≤ R') {p : Pattern} {s : σ} {bound : Table σ}
    (h : p.bindings? R s = .ok (some bound)) : p.bindings? R' s = .ok (some bound) :=
  bindings?_eq_some.mpr (confirms_fit hR p s _ _ _ (bindings?_eq_some.mp h))

end Pattern

end Casewise
