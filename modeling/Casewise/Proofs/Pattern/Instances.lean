import Mathlib.Data.List.Nodup
import Casewise.Proofs.Pattern.Fit
import Casewise.Proofs.Value.Valid

/-!
# Instances of patterns

What it is for a value to match a pattern can be said without matching: the value is an instance of
the pattern if putting values for the names and the wildcards of the pattern makes it. Matching
decides just this, and the names it binds are those of the pattern, each bound to the value that has
been put for it. It does so without errors if every constructor is declared and has as many parts as
it is declared with, in the pattern and in the value, and if no name occurs twice in the pattern.

## Main definitions

* `Pattern.Becomes`: the values that a pattern becomes when values are put for its names and its
  wildcards.
* `Pattern.Lawful`, `Value.Registered`: patterns and values built by declared constructors.
* `Pattern.Exact`: patterns with a single instance and no names.

## Main statements

* `Pattern.bindings?_of_becomes`: a pattern fits its instances, and binds its names to what has been
  put for them.
* `Pattern.bindings?_of_not_isInstance`: it fits no other value.
* `Pattern.Exact.outcome_fit`: matching with a pattern of a single instance compares values.
-/

namespace Casewise

/-! ### Instances -/

namespace Pattern

mutual

/-- The values that the pattern becomes when each of its names is replaced by what `θ` puts for it,
and each of its wildcards by some value of its own. -/
inductive Becomes (θ : String → Value) : Pattern → Value → Prop
  | wildcard (span : Option Span) (v : Value) : Becomes θ (wildcard span) v
  | binding (name : String) (span : Option Span) : Becomes θ (binding name span) (θ name)
  | number (n : Int) (span : Option Span) : Becomes θ (number n span) (.number n)
  | boolean (b : Bool) (span : Option Span) : Becomes θ (boolean b span) (.boolean b)
  | string (s : String) (span : Option Span) : Becomes θ (string s span) (.string s)
  /-- A pair becomes the pair of what its components become. -/
  | pair {p q : Pattern} {a b : Value} (span : Option Span) (hp : Becomes θ p a)
    (hq : Becomes θ q b) : Becomes θ (pair p q span) (.pair a b)
  /-- A constructor builds what it builds from what its parts become. -/
  | construct {args : List Pattern} {fields : List Value} (name : String) (span : Option Span)
    (hargs : BecomeAll θ args fields) :
    Becomes θ (construct name args span) (.constructed name fields)

/-- The values that the patterns become, one by one. -/
inductive BecomeAll (θ : String → Value) : List Pattern → List Value → Prop
  | nil : BecomeAll θ [] []
  | cons {p : Pattern} {ps : List Pattern} {v : Value} {vs : List Value} (h : Becomes θ p v)
    (hs : BecomeAll θ ps vs) : BecomeAll θ (p :: ps) (v :: vs)

end

theorem BecomeAll.length_eq {θ : String → Value} {ps : List Pattern} {vs : List Value}
    (h : BecomeAll θ ps vs) : ps.length = vs.length := by
  induction ps generalizing vs with
  | nil =>
    cases h
    rfl
  | cons p ps ih =>
    cases h with
    | cons _ hs => rw [List.length_cons, List.length_cons, ih hs]

/-- A constructor `Becomes` what it builds from what its parts become. -/
theorem becomes_construct_iff {θ : String → Value} {name : String} {args : List Pattern}
    {span : Option Span} {v : Value} : (construct name args span).Becomes θ v ↔
      ∃ fields, v = .constructed name fields ∧ BecomeAll θ args fields := by
  constructor
  · intro h
    cases h with
    | construct _ _ hargs => exact ⟨_, rfl, hargs⟩
  · rintro ⟨fields, rfl, hargs⟩
    exact .construct name span hargs

/-- Every constructor of the pattern is declared, and there is a part for each of its fields. -/
inductive Lawful (R : Registry) : Pattern → Prop
  | wildcard (span : Option Span) : Lawful R (wildcard span)
  | binding (name : String) (span : Option Span) : Lawful R (binding name span)
  | number (n : Int) (span : Option Span) : Lawful R (number n span)
  | boolean (b : Bool) (span : Option Span) : Lawful R (boolean b span)
  | string (s : String) (span : Option Span) : Lawful R (string s span)
  | pair {p q : Pattern} (span : Option Span) (hp : Lawful R p) (hq : Lawful R q) :
    Lawful R (pair p q span)
  /-- Declared constructors with such parts, one for each field. -/
  | construct {name : String} {args : List Pattern} {info : ConstructorInfo} (span : Option Span)
    (hinfo : R.constructor? name = some info) (hlength : args.length = info.arity)
    (hargs : ∀ p ∈ args, Lawful R p) : Lawful R (construct name args span)

end Pattern

/-- What a constructor has built in the value was built by a declared constructor, and has as many
fields as it is declared with. -/
def Value.Registered (R : Registry) (v : Value) : Prop :=
  ∀ name fields, .constructed name fields ∈ v.parts →
    ∃ info, R.constructor? name = some info ∧ fields.length = info.arity

/-! ### Looking at values -/

namespace Subject

variable {v : Value}

theorem fitsNumber_iff {n : Int} : fitsNumber v n = true ↔ v = .number n := by
  cases v with
  | number m => exact decide_eq_true_iff.trans (by rw [Value.number.injEq])
  | _ => exact iff_of_false nofun nofun

theorem fitsBoolean_iff {b : Bool} : fitsBoolean v b = true ↔ v = .boolean b := by
  cases v with
  | boolean c => exact decide_eq_true_iff.trans (by rw [Value.boolean.injEq])
  | _ => exact iff_of_false nofun nofun

theorem fitsString_iff {s : String} : fitsString v s = true ↔ v = .string s := by
  cases v with
  | string r => exact decide_eq_true_iff.trans (by rw [Value.string.injEq])
  | _ => exact iff_of_false nofun nofun

theorem components?_eq_some_iff {a b : Value} : components? v = some (a, b) ↔ v = .pair a b := by
  cases v with
  | pair x y =>
    change some (x, y) = some (a, b) ↔ _
    simp
  | _ => exact iff_of_false nofun nofun

theorem fields?_eq_some_iff {info : ConstructorInfo} {fields : List Value} :
    fields? v info = some fields ↔ v = .constructed info.name fields := by
  cases v with
  | constructed name fields' =>
    change (if name = info.name then some fields' else none) = some fields ↔ _
    simp
  | _ => exact iff_of_false nofun nofun

end Subject

theorem Value.registered_of_parts_eq {R : Registry} {v : Value} (hparts : v.parts = [v])
    (h : ∀ name fields, v ≠ constructed name fields) : v.Registered R := by
  intro name fields hmem
  rw [hparts, List.mem_singleton] at hmem
  exact absurd hmem.symm (h name fields)

theorem Value.registered_pair {R : Registry} {a b : Value} :
    (Value.pair a b).Registered R ↔ a.Registered R ∧ b.Registered R := by
  simp [Registered, parts, or_imp, forall_and]

/-- What a constructor has built is `Registered` if that one is declared with as many fields and the
fields are `Registered`. -/
theorem Value.registered_constructed {R : Registry} {name : String} {fields : List Value} :
    (constructed name fields).Registered R ↔
      (∃ info, R.constructor? name = some info ∧ fields.length = info.arity) ∧
        ∀ v ∈ fields, v.Registered R := by
  simp only [Registered, parts, List.mem_cons, mem_partsAll]
  constructor
  · intro h
    exact ⟨h name fields (.inl rfl), fun v hv name' fields' hmem =>
      h name' fields' (.inr ⟨v, hv, hmem⟩)⟩
  · rintro ⟨hinfo, h⟩ name' fields' (heq | ⟨v, hv, hmem⟩)
    · obtain ⟨rfl, rfl⟩ := Value.constructed.inj heq
      exact hinfo
    · exact h v hv name' fields' hmem

/-- `Registered` values are a closed kind: patterns find such values in them, and as many as they
look for. -/
theorem Value.registered_closed (R : Registry) : Subject.Closed R (Value.Registered R) where
  components {v a b} hv hparts := by
    obtain rfl := Subject.components?_eq_some_iff.mp hparts
    exact registered_pair.mp hv
  fields {v name info fields} hv hinfo hfields := by
    obtain rfl := Subject.fields?_eq_some_iff.mp hfields
    obtain ⟨⟨info', hinfo', hlength⟩, hfields⟩ := registered_constructed.mp hv
    rw [Registry.name_of_constructor? hinfo, hinfo] at hinfo'
    cases hinfo'
    exact ⟨hlength, hfields⟩

/-! ### Matching instances -/

namespace Pattern

variable {R : Registry} {θ : String → Value}

/-- `fit` of a declared constructor that has a part for each field. -/
theorem fit_construct {name : String} {args : List Pattern} {info : ConstructorInfo}
    (hinfo : R.constructor? name = some info) (hlength : args.length = info.arity)
    (span : Option Span) (v : Value) : fit R (construct name args span) v =
      match Subject.fields? v info with
      | none => pure false
      | some fields =>
        if fields.length ≠ args.length then
          throw ⟨.arityMismatch ("pattern '" ++ name ++ "'") fields.length args.length, span⟩
        else fitAll R args fields := by
  have hcount : ¬ args.length ≠ info.arity := not_not.mpr hlength
  rw [fit, hinfo]
  dsimp only
  rw [if_neg hcount]
  cases Subject.fields? v info <;> rfl

mutual

/-- A pattern fits what it `Becomes`, and binds its names to what `θ` puts for them. -/
theorem fit_of_becomes :
    ∀ {p : Pattern} {v : Value} {t : Table Value}, p.Lawful R → p.Becomes θ v →
      (t.names ++ p.names).Nodup → ∃ t', outcome (p.fit R v) t = (.ok true, t') ∧
        t'.entries = t.entries ++ p.names.map fun name => (name, θ name)
  | wildcard _, _, t, _, _, _ => ⟨t, rfl, (List.append_nil _).symm⟩
  | number .., _, t, _, h, _ => by
    cases h
    exact ⟨t, congrArg (fun b => (Except.ok b, t)) (Subject.fitsNumber_iff.mpr rfl),
      (List.append_nil _).symm⟩
  | boolean .., _, t, _, h, _ => by
    cases h
    exact ⟨t, congrArg (fun b => (Except.ok b, t)) (Subject.fitsBoolean_iff.mpr rfl),
      (List.append_nil _).symm⟩
  | string .., _, t, _, h, _ => by
    cases h
    exact ⟨t, congrArg (fun b => (Except.ok b, t)) (Subject.fitsString_iff.mpr rfl),
      (List.append_nil _).symm⟩
  | binding name _, _, t, _, h, hnodup => by
    cases h
    have hnew : t.get? name = none := by
      rw [Table.get?_eq_none_iff]
      exact fun hmem => (List.nodup_append.mp hnodup).2.2 name hmem name List.mem_cons_self rfl
    refine ⟨t.insert name (θ name), ?_, Table.entries_insert_of_get?_eq_none hnew _⟩
    exact outcome_bindName_eq_fits.mpr ⟨Table.contains_eq_false.mpr hnew, rfl⟩
  | pair p q _, _, t, hlawful, h, hnodup => by
    cases hlawful with
    | pair _ hlawfulp hlawfulq =>
      cases h with
      | pair _ hp hq =>
        rw [names, ← List.append_assoc] at hnodup
        obtain ⟨t₁, hfirst, hentries⟩ :=
          fit_of_becomes hlawfulp hp (List.nodup_append.mp hnodup).1
        rw [← names_of_fit hfirst] at hnodup
        obtain ⟨t₂, hsecond, hentries'⟩ := fit_of_becomes hlawfulq hq hnodup
        refine ⟨t₂, outcome_pair_eq_fits.mpr ⟨_, _, t₁, rfl, hfirst, hsecond⟩, ?_⟩
        rw [hentries', hentries, names, List.map_append, List.append_assoc]
  | construct name args span, _, t, hlawful, h, hnodup => by
    cases hlawful with
    | construct _ hinfo hlength hlawful =>
      cases h with
      | @construct _ fields _ _ hargs =>
        obtain ⟨t', hfit, hentries⟩ := fitAll_of_becomeAll hlawful hargs hnodup
        have hfields : Subject.fields? (Value.constructed name fields) _ = some fields :=
          Subject.fields?_eq_some_iff.mpr (by rw [Registry.name_of_constructor? hinfo])
        exact ⟨t', outcome_construct_eq_fits.mpr
          ⟨_, fields, hinfo, hlength, hfields, hargs.length_eq.symm, hfit⟩, hentries⟩

theorem fitAll_of_becomeAll :
    ∀ {ps : List Pattern} {vs : List Value} {t : Table Value}, (∀ p ∈ ps, p.Lawful R) →
      BecomeAll θ ps vs → (t.names ++ namesAll ps).Nodup →
      ∃ t', outcome (fitAll R ps vs) t = (.ok true, t') ∧
        t'.entries = t.entries ++ (namesAll ps).map fun name => (name, θ name)
  | [], _, t, _, _, _ => ⟨t, rfl, (List.append_nil _).symm⟩
  | p :: ps, _, t, hlawful, h, hnodup => by
    obtain ⟨hlawfulp, hlawful⟩ := List.forall_mem_cons.mp hlawful
    cases h with
    | cons hp hps =>
      rw [namesAll, ← List.append_assoc] at hnodup
      obtain ⟨t₁, hfirst, hentries⟩ := fit_of_becomes hlawfulp hp (List.nodup_append.mp hnodup).1
      rw [← names_of_fit hfirst] at hnodup
      obtain ⟨t₂, hrest, hentries'⟩ := fitAll_of_becomeAll hlawful hps hnodup
      refine ⟨t₂, outcome_andThen_eq_fits.mpr ⟨t₁, hfirst, hrest⟩, ?_⟩
      rw [hentries', hentries, namesAll, List.map_append, List.append_assoc]

end

mutual

/-- A value that the pattern fits is an instance: it is what the pattern `Becomes` when everything
is put for the names that they are bound to. -/
theorem becomes_of_fit :
    ∀ {p : Pattern} {v : Value} {t t' : Table Value}, outcome (p.fit R v) t = (.ok true, t') →
      (∀ name w, t'.get? name = some w → θ name = w) → p.Becomes θ v
  | wildcard span, v, _, _, _, _ => .wildcard span v
  | number n span, v, t, _, h, _ => by
    obtain ⟨hfits, -⟩ := Prod.mk.inj h
    obtain rfl := Subject.fitsNumber_iff.mp (Except.ok.inj hfits)
    exact .number n span
  | boolean b span, v, t, _, h, _ => by
    obtain ⟨hfits, -⟩ := Prod.mk.inj h
    obtain rfl := Subject.fitsBoolean_iff.mp (Except.ok.inj hfits)
    exact .boolean b span
  | string s span, v, t, _, h, _ => by
    obtain ⟨hfits, -⟩ := Prod.mk.inj h
    obtain rfl := Subject.fitsString_iff.mp (Except.ok.inj hfits)
    exact .string s span
  | binding name span, v, t, t', h, hθ => by
    obtain ⟨-, rfl⟩ := outcome_bindName_eq_fits.mp h
    obtain rfl := hθ name v (Table.get?_insert_self t name v)
    exact .binding name span
  | pair p q span, v, t, t', h, hθ => by
    obtain ⟨a, b, t₁, hparts, hfirst, hsecond⟩ := outcome_pair_eq_fits.mp h
    obtain rfl := Subject.components?_eq_some_iff.mp hparts
    -- what the first component is bound to stays bound to it
    have hθ₁ : ∀ name w, t₁.get? name = some w → θ name = w := fun name w hw =>
      hθ name w (get?_of_fit hsecond hw)
    exact .pair span (becomes_of_fit hfirst hθ₁) (becomes_of_fit hsecond hθ)
  | construct name args span, v, t, t', h, hθ => by
    obtain ⟨info, fields, hinfo, -, hfields, hlength, hargs⟩ := outcome_construct_eq_fits.mp h
    obtain rfl := Subject.fields?_eq_some_iff.mp hfields
    rw [Registry.name_of_constructor? hinfo]
    exact .construct name span (becomeAll_of_fitAll hlength.symm hargs hθ)

theorem becomeAll_of_fitAll :
    ∀ {ps : List Pattern} {vs : List Value} {t t' : Table Value}, ps.length = vs.length →
      outcome (fitAll R ps vs) t = (.ok true, t') →
      (∀ name w, t'.get? name = some w → θ name = w) → BecomeAll θ ps vs
  | [], [], _, _, _, _, _ => .nil
  | [], _ :: _, _, _, hlength, _, _ => nomatch hlength
  | _ :: _, [], _, _, hlength, _, _ => nomatch hlength
  | p :: ps, v :: vs, t, t', hlength, h, hθ => by
    obtain ⟨t₁, hfirst, hrest⟩ := outcome_andThen_eq_fits.mp h
    have hθ₁ : ∀ name w, t₁.get? name = some w → θ name = w := fun name w hw =>
      hθ name w (get?_of_fitAll hrest hw)
    exact .cons (becomes_of_fit hfirst hθ₁) (becomeAll_of_fitAll (Nat.succ.inj hlength) hrest hθ)

end

mutual

/-- Matching does not fail if the pattern is `Lawful`, the value `Registered` and no name is bound
twice. -/
theorem exists_outcome_fit :
    ∀ {p : Pattern} {v : Value} {t : Table Value}, p.Lawful R → v.Registered R →
      (t.names ++ p.names).Nodup → ∃ fits t', outcome (p.fit R v) t = (.ok fits, t')
  | wildcard .., _, t, _, _, _ | number .., _, t, _, _, _ | boolean .., _, t, _, _, _
  | string .., _, t, _, _, _ => ⟨_, t, rfl⟩
  | binding name _, v, t, _, _, hnodup => by
    have hnew : name ∉ t.names := fun hmem =>
      (List.nodup_append.mp hnodup).2.2 name hmem name List.mem_cons_self rfl
    rw [← Table.contains_iff] at hnew
    refine ⟨true, t.insert name v, ?_⟩
    rw [fit, outcome_bindName, if_neg hnew]
  | pair p q _, v, t, hlawful, hv, hnodup => by
    cases hlawful with
    | pair _ hp hq =>
      rw [fit]
      cases hparts : Subject.components? v with
      | none => exact ⟨false, t, rfl⟩
      | some parts =>
        obtain ⟨a, b⟩ := parts
        obtain ⟨ha, hb⟩ := (Value.registered_closed R).components hv hparts
        rw [names, ← List.append_assoc] at hnodup
        obtain ⟨fits, t₁, hfirst⟩ := exists_outcome_fit hp ha (List.nodup_append.mp hnodup).1
        dsimp only
        rw [outcome_andThen, hfirst]
        cases fits with
        | false => exact ⟨false, t₁, rfl⟩
        | true =>
          rw [← names_of_fit hfirst] at hnodup
          exact exists_outcome_fit hq hb hnodup
  | construct name args span, v, t, hlawful, hv, hnodup => by
    cases hlawful with
    | construct _ hinfo hlength hlawful =>
      rw [fit_construct hinfo hlength]
      cases hfields : Subject.fields? v _ with
      | none => exact ⟨false, t, rfl⟩
      | some fields =>
        obtain ⟨hcount, hfields⟩ := (Value.registered_closed R).fields hv hinfo hfields
        have hcount : ¬ fields.length ≠ args.length := not_not.mpr (hcount.trans hlength.symm)
        dsimp only
        rw [if_neg hcount]
        exact exists_outcome_fitAll hlawful hfields (not_not.mp hcount).symm hnodup

theorem exists_outcome_fitAll :
    ∀ {ps : List Pattern} {vs : List Value} {t : Table Value}, (∀ p ∈ ps, p.Lawful R) →
      (∀ v ∈ vs, v.Registered R) → ps.length = vs.length → (t.names ++ namesAll ps).Nodup →
      ∃ fits t', outcome (fitAll R ps vs) t = (.ok fits, t')
  | [], _, t, _, _, _, _ => ⟨true, t, rfl⟩
  | _ :: _, [], _, _, _, hlength, _ => nomatch hlength
  | p :: ps, v :: vs, t, hlawful, hvs, hlength, hnodup => by
    obtain ⟨hp, hps⟩ := List.forall_mem_cons.mp hlawful
    obtain ⟨hv, hvs⟩ := List.forall_mem_cons.mp hvs
    rw [namesAll, ← List.append_assoc] at hnodup
    obtain ⟨fits, t₁, hfirst⟩ := exists_outcome_fit hp hv (List.nodup_append.mp hnodup).1
    rw [fitAll, outcome_andThen, hfirst]
    cases fits with
    | false => exact ⟨false, t₁, rfl⟩
    | true =>
      rw [← names_of_fit hfirst] at hnodup
      exact exists_outcome_fitAll hps hvs (Nat.succ.inj hlength) hnodup

end

/-! ### What a pattern finds -/

variable {p : Pattern} {v : Value}

/-- The value is what the pattern becomes when some values are put for its names and wildcards. -/
def IsInstance (p : Pattern) (v : Value) : Prop :=
  ∃ θ, p.Becomes θ v

/-- In an instance, the pattern finds what `θ` has put for its names, from left to right. -/
theorem bindings?_of_becomes (hp : p.Lawful R) (hnodup : p.names.Nodup) (h : p.Becomes θ v) :
    ∃ bound, p.bindings? R v = .ok (some bound) ∧
      bound.entries = p.names.map fun name => (name, θ name) := by
  obtain ⟨bound, hfit, hentries⟩ := fit_of_becomes (t := ∅) hp h hnodup
  exact ⟨bound, bindings?_eq_some.mpr hfit, hentries⟩

/-- Only an instance fits: `fit` is sound for `IsInstance`. -/
theorem isInstance_of_fit {t t' : Table Value} (h : outcome (p.fit R v) t = (.ok true, t')) :
    p.IsInstance v := by
  refine ⟨fun name => (t'.get? name).getD default, becomes_of_fit h ?_⟩
  intro name w hw
  rw [hw, Option.getD_some]

/-- A value that is not `IsInstance` of a pattern does not fit, and there is no error. -/
theorem bindings?_of_not_isInstance (hp : p.Lawful R) (hnodup : p.names.Nodup)
    (hv : v.Registered R) (h : ¬ p.IsInstance v) : p.bindings? R v = .ok none := by
  obtain ⟨fits, t, hfit⟩ := exists_outcome_fit (t := ∅) hp hv hnodup
  cases fits with
  | true => exact absurd (isInstance_of_fit hfit) h
  | false => exact bindings?_eq_none.mpr (congrArg Prod.fst hfit)

/-! ### Patterns of a single value -/

/-- The pattern and the value are built by declared constructors, the pattern has no names, and the
value is its only instance. -/
structure Exact (R : Registry) (p : Pattern) (v : Value) : Prop where
  /-- The constructors of the pattern are declared, and there is a part for each of their fields. -/
  lawful : p.Lawful R
  /-- So it is with the value. -/
  registered : v.Registered R
  /-- It has no names. -/
  names_eq_nil : p.names = []
  /-- The value is an instance, and there is no other one. -/
  becomes_iff : ∀ θ w, p.Becomes θ w ↔ w = v

/-- What lists of `Exact` patterns become. -/
theorem becomeAll_iff_of_exact {ps : List Pattern} {vs : List Value}
    (h : List.Forall₂ (Exact R) ps vs) (ws : List Value) : BecomeAll θ ps ws ↔ ws = vs := by
  induction h generalizing ws with
  | nil =>
    constructor
    · rintro ⟨⟩
      rfl
    · rintro rfl
      exact .nil
  | cons hp _ ih =>
    constructor
    · intro hws
      cases hws with
      | cons hw hws => rw [(hp.becomes_iff θ _).mp hw, (ih _).mp hws]
    · rintro rfl
      exact .cons ((hp.becomes_iff θ _).mpr rfl) ((ih _).mpr rfl)

namespace Exact

theorem number (n : Int) (span : Option Span) : Exact R (.number n span) (.number n) where
  lawful := .number n span
  registered := Value.registered_of_parts_eq rfl nofun
  names_eq_nil := rfl
  becomes_iff θ w := ⟨fun h => by cases h; rfl, fun h => h ▸ .number n span⟩

theorem boolean (b : Bool) (span : Option Span) : Exact R (.boolean b span) (.boolean b) where
  lawful := .boolean b span
  registered := Value.registered_of_parts_eq rfl nofun
  names_eq_nil := rfl
  becomes_iff θ w := ⟨fun h => by cases h; rfl, fun h => h ▸ .boolean b span⟩

theorem string (s : String) (span : Option Span) : Exact R (.string s span) (.string s) where
  lawful := .string s span
  registered := Value.registered_of_parts_eq rfl nofun
  names_eq_nil := rfl
  becomes_iff θ w := ⟨fun h => by cases h; rfl, fun h => h ▸ .string s span⟩

theorem pair {p q : Pattern} {a b : Value} (hp : p.Exact R a) (hq : q.Exact R b)
    (span : Option Span) : Exact R (.pair p q span) (.pair a b) where
  lawful := .pair span hp.lawful hq.lawful
  registered := Value.registered_pair.mpr ⟨hp.registered, hq.registered⟩
  names_eq_nil := by rw [names, hp.names_eq_nil, hq.names_eq_nil, List.append_nil]
  becomes_iff θ w := by
    constructor
    · intro h
      cases h with
      | pair _ ha hb => rw [(hp.becomes_iff θ _).mp ha, (hq.becomes_iff θ _).mp hb]
    · rintro rfl
      exact .pair span ((hp.becomes_iff θ _).mpr rfl) ((hq.becomes_iff θ _).mpr rfl)

theorem construct {name : String} {info : ConstructorInfo} {ps : List Pattern} {vs : List Value}
    (hinfo : R.constructor? name = some info) (hlength : vs.length = info.arity)
    (hps : List.Forall₂ (Exact R) ps vs) (span : Option Span) :
    Exact R (.construct name ps span) (.constructed name vs) where
  lawful := .construct span hinfo (hps.length_eq.trans hlength)
    (forall_mem_right hps.flip fun _ _ _ hp => hp.lawful)
  registered := Value.registered_constructed.mpr
    ⟨⟨info, hinfo, hlength⟩, forall_mem_right hps fun _ _ _ hp => hp.registered⟩
  names_eq_nil := by
    rw [names]
    clear hlength
    induction hps with
    | nil => rfl
    | cons hp _ ih => rw [namesAll, hp.names_eq_nil, ih, List.append_nil]
  becomes_iff θ w := by
    rw [becomes_construct_iff]
    simp only [becomeAll_iff_of_exact hps, exists_eq_right]

/-- Matching with a pattern that is `Exact` tells whether the value is the one, and binds
nothing. -/
theorem outcome_fit (h : p.Exact R v) {w : Value} (hw : w.Registered R) (t : Table Value) :
    ∃ fits, outcome (p.fit R w) t = (.ok fits, t) ∧ (fits = true ↔ w = v) := by
  have hnodup : (t.names ++ p.names).Nodup := by
    rw [h.names_eq_nil, List.append_nil]
    exact t.nodup
  obtain ⟨fits, t', hfit⟩ := exists_outcome_fit h.lawful hw hnodup
  have hleaves := fit_leaves_of_names_eq_nil h.names_eq_nil R w t
  rw [hfit] at hleaves
  obtain rfl : t' = t := hleaves
  refine ⟨fits, hfit, fun hfits => ?_, fun hwv => ?_⟩
  · rw [hfits] at hfit
    obtain ⟨θ, hbecomes⟩ := isInstance_of_fit hfit
    exact (h.becomes_iff θ w).mp hbecomes
  · have hbecomes := (h.becomes_iff (fun _ => default) w).mpr hwv
    obtain ⟨t'', hfit', -⟩ := fit_of_becomes h.lawful hbecomes hnodup
    rw [hfit] at hfit'
    exact Except.ok.inj (Prod.mk.inj hfit').1

end Exact

end Pattern

end Casewise
