import Casewise.Proofs.Pattern.Fit
import Casewise.Proofs.Value.Inhabits
import Casewise.Typing.Subject
import Casewise.Value.Subject

/-!
# Matching a type and matching its values

One pattern is matched against the type of a scrutinee when a program is checked, and against its
value when the program runs. The value may fail to fit where the type fits, since a literal asks for
one value of its type and a constructor for one way to build its data type; apart from that the two
matches go in step. Every name that the value binds is one that the type binds, to a value of the
type bound there, and an error in one of them is the same error in the other, unless the value has
stopped fitting before.

The argument needs to know only one layer of the value at a time, so it is made for any relation
between values and types that has the shape of `Value.Shape`.

## Main statements

* `Pattern.inStep_fit`: the two matches go in step.
* `Pattern.bindings?_of_shape`: what an arm that checks does with a value.
* `Pattern.valueFollowsType_of_inhabits`: the two matches for values that inhabit the type.
-/

namespace Casewise

variable {R : Registry} {rel : Value → Ty → Prop}

/-! ### One layer -/

/-- A function has nothing that a pattern could look into: none of the tests of `Subject`
succeeds. -/
theorem Subject.of_isFunction {v : Value} (hv : v.isFunction = true) :
    (∀ n, Subject.fitsNumber v n = false) ∧ (∀ b, Subject.fitsBoolean v b = false) ∧
      (∀ s, Subject.fitsString v s = false) ∧ Subject.components? v = none ∧
      ∀ info, Subject.fields? v info = none := by
  cases v with
  | closure | builtin | constructor =>
    exact ⟨fun _ => rfl, fun _ => rfl, fun _ => rfl, rfl, fun _ => rfl⟩
  | _ => cases hv

theorem Subject.fields?_constructed (name : String) (fields : List Value) (info : ConstructorInfo) :
    Subject.fields? (Value.constructed name fields) info =
      if name = info.name then some fields else none :=
  rfl

namespace Value.Shape

variable {v : Value} {ty : Ty}

theorem fitsNumber_of_type (h : v.Shape R rel ty) {n : Int} (hv : Subject.fitsNumber v n = true) :
    Subject.fitsNumber ty n = true := by
  cases h with
  | number => rfl
  | function hf => rw [(Subject.of_isFunction hf).1] at hv; cases hv
  | _ => cases hv

theorem fitsBoolean_of_type (h : v.Shape R rel ty) {b : Bool}
    (hv : Subject.fitsBoolean v b = true) : Subject.fitsBoolean ty b = true := by
  cases h with
  | boolean => rfl
  | function hf => rw [(Subject.of_isFunction hf).2.1] at hv; cases hv
  | _ => cases hv

theorem fitsString_of_type (h : v.Shape R rel ty) {s : String}
    (hv : Subject.fitsString v s = true) : Subject.fitsString ty s = true := by
  cases h with
  | string => rfl
  | function hf => rw [(Subject.of_isFunction hf).2.2.1] at hv; cases hv
  | _ => cases hv

theorem components?_eq_none (h : v.Shape R rel ty) (hty : Subject.components? ty = none) :
    Subject.components? v = none := by
  cases h with
  | pair => cases hty
  | function hf => exact (Subject.of_isFunction hf).2.2.2.1
  | _ => rfl

/-- A value of a type that has `components?` is a pair of related components. -/
theorem components?_eq_some (h : v.Shape R rel ty) {first second : Ty}
    (hty : Subject.components? ty = some (first, second)) :
    ∃ a b, Subject.components? v = some (a, b) ∧ rel a first ∧ rel b second := by
  cases h with
  | pair ha hb =>
    cases hty
    exact ⟨_, _, rfl, ha, hb⟩
  | constructed _ howner =>
    cases ty with
    | pair => cases howner
    | _ => cases hty
  | _ => cases hty

/-- The `fields?` that a declared constructor finds in a value are fields of its data type, and they
are related to the declared types. -/
theorem fields?_eq_some (h : v.Shape R rel ty) {name : String} {info : ConstructorInfo}
    (hinfo : R.constructor? name = some info) {fields : List Value}
    (hv : Subject.fields? v info = some fields) :
    ty.owner? = some info.data ∧ List.Forall₂ rel fields info.fields := by
  cases h with
  | constructed hinfo' howner hfields =>
    rw [Subject.fields?_constructed] at hv
    split at hv
    · next hname =>
      cases hv
      rw [hname, Registry.name_of_constructor? hinfo, hinfo] at hinfo'
      cases hinfo'
      exact ⟨howner, hfields⟩
    · cases hv
  | function hf => rw [(Subject.of_isFunction hf).2.2.2.2] at hv; cases hv
  | _ => cases hv

end Value.Shape

/-! ### Whole patterns -/

namespace Pattern

/-- The outcome of matching a type and the outcome of matching one of its values, when both have
started alike. -/
inductive InStep (rel : Value → Ty → Prop) :
    Except LangError Bool × Table Ty → Except LangError Bool × Table Value → Prop
  /-- Both fit and have bound the same names. -/
  | fits {tys : Table Ty} {vals : Table Value} (h : tys.Alike (fun ty v => rel v ty) vals) :
    InStep rel (.ok true, tys) (.ok true, vals)
  /-- The type fits, and the value does not, after some of the names. -/
  | onlyType {tys : Table Ty} {vals : Table Value} (h : vals.names <+: tys.names) :
    InStep rel (.ok true, tys) (.ok false, vals)
  | neither {tys : Table Ty} {vals : Table Value} : InStep rel (.ok false, tys) (.ok false, vals)
  /-- The type meets an error after the value has stopped fitting. -/
  | spared {e : LangError} {tys : Table Ty} {vals : Table Value} :
    InStep rel (.error e, tys) (.ok false, vals)
  | error {e : LangError} {tys : Table Ty} {vals : Table Value} :
    InStep rel (.error e, tys) (.error e, vals)

namespace InStep

/-- A value that does not fit is `InStep` with any way the match of the type goes on. -/
theorem of_stopped {x : Fitting Ty Bool} {tys : Table Ty} {vals : Table Value}
    (hx : tys.names <+: (outcome x tys).2.names) (h : vals.names <+: tys.names) :
    InStep rel (outcome x tys) (.ok false, vals) := by
  rcases hout : outcome x tys with ⟨e | _ | _, tys'⟩
  · exact .spared
  · exact .neither
  · rw [hout] at hx
    exact .onlyType (h.trans hx)

/-- Two matches in turn are `InStep` if both are and the second match of the type keeps names. -/
theorem andThen {x y : Fitting Ty Bool} {x' y' : Fitting Value Bool} {tys : Table Ty}
    {vals : Table Value} (hx : InStep rel (outcome x tys) (outcome x' vals))
    (hy : ∀ tys vals, tys.Alike (fun ty v => rel v ty) vals →
      InStep rel (outcome y tys) (outcome y' vals))
    (hnames : ∀ tys, tys.names <+: (outcome y tys).2.names) :
    InStep rel (outcome (do if ← x then y else pure false) tys)
      (outcome (do if ← x' then y' else pure false) vals) := by
  rw [outcome_andThen, outcome_andThen]
  generalize outcome x tys = a at hx
  generalize outcome x' vals = b at hx
  cases hx with
  | fits h => exact hy _ _ h
  | onlyType h => exact of_stopped (hnames _) h
  | neither => exact .neither
  | spared => exact .spared
  | error => exact .error

/-- A test of one literal is `InStep` if the value passes it only if the type does. -/
theorem literal {tys : Table Ty} {vals : Table Value} (h : tys.Alike (fun ty v => rel v ty) vals)
    {b b' : Bool} (hb : b' = true → b = true) : InStep rel (.ok b, tys) (.ok b', vals) := by
  cases b' with
  | true => rw [hb rfl]; exact .fits h
  | false =>
    cases b with
    | true => exact .onlyType (h.names_eq ▸ List.prefix_refl _)
    | false => exact .neither

end InStep

mutual

/-- Matching a type and matching one of its values are `InStep`. -/
theorem inStep_fit (hrel : ∀ v ty, rel v ty → v.Shape R rel ty) :
    ∀ (p : Pattern) {v : Value} {ty : Ty} {tys : Table Ty} {vals : Table Value}, rel v ty →
      tys.Alike (fun ty v => rel v ty) vals →
      InStep rel (outcome (p.fit R ty) tys) (outcome (p.fit R v) vals)
  | wildcard _, _, _, _, _, _, ht => .fits ht
  | binding name _, v, ty, tys, vals, h, ht => by
    rw [fit, fit, outcome_bindName, outcome_bindName]
    cases hname : tys.contains name with
    | true =>
      rw [Table.contains_iff, ht.names_eq, ← Table.contains_iff] at hname
      rw [hname]
      exact .error
    | false =>
      rw [Table.contains_eq_false] at hname
      rw [Table.contains_eq_false.mpr (ht.get?_eq_none.mp hname)]
      exact .fits (ht.insert hname h)
  | number n _, _, _, _, _, h, ht => .literal ht (hrel _ _ h).fitsNumber_of_type
  | boolean b _, _, _, _, _, h, ht => .literal ht (hrel _ _ h).fitsBoolean_of_type
  | string s _, _, _, _, _, h, ht => .literal ht (hrel _ _ h).fitsString_of_type
  | pair first second _, v, ty, tys, vals, h, ht => by
    rw [fit, fit]
    cases hty : Subject.components? ty with
    | none =>
      rw [(hrel _ _ h).components?_eq_none hty]
      exact .neither
    | some parts =>
      obtain ⟨firstTy, secondTy⟩ := parts
      obtain ⟨a, b, hv, ha, hb⟩ := (hrel _ _ h).components?_eq_some hty
      rw [hv]
      exact .andThen (inStep_fit hrel first ha ht) (fun _ _ ht' => inStep_fit hrel second hb ht')
        (names_prefix_fit R second secondTy)
  | construct name args span, v, ty, tys, vals, h, ht => by
    rw [fit, fit]
    cases hinfo : R.constructor? name with
    | none => exact .error
    | some info =>
      simp only
      split
      · exact .error
      · next harity =>
        have hlength : args.length = info.fields.length := not_not.mp harity
        -- the type has fields if it belongs to the data type, the value if the constructor built it
        cases hv : Subject.fields? v info with
        | none =>
          refine InStep.of_stopped ?_ (ht.names_eq ▸ List.prefix_refl _)
          have hnames := names_prefix_fit R (construct name args span) ty tys
          rw [fit, hinfo] at hnames
          simp only at hnames
          rwa [if_neg harity] at hnames
        | some fields =>
          obtain ⟨howner, hfields⟩ := (hrel _ _ h).fields?_eq_some hinfo hv
          rw [show Subject.fields? ty info = _ from if_pos howner]
          simp only
          rw [if_neg (not_not.mpr hlength.symm),
            if_neg (not_not.mpr (hfields.length_eq.trans hlength.symm))]
          exact inStep_fitAll hrel args hfields ht

theorem inStep_fitAll (hrel : ∀ v ty, rel v ty → v.Shape R rel ty) :
    ∀ (ps : List Pattern) {vs : List Value} {tys' : List Ty} {tys : Table Ty} {vals : Table Value},
      List.Forall₂ rel vs tys' → tys.Alike (fun ty v => rel v ty) vals →
      InStep rel (outcome (fitAll R ps tys') tys) (outcome (fitAll R ps vs) vals)
  | [], _, _, _, _, _, ht => .fits ht
  | _ :: _, _, _, _, _, .nil, ht => .fits ht
  | p :: ps, _, _, _, _, .cons h hs, ht => by
    rw [fitAll, fitAll]
    exact .andThen (inStep_fit hrel p h ht) (fun _ _ ht' => inStep_fitAll hrel ps hs ht')
      (names_prefix_fitAll R ps _)

end

/-- What an arm whose pattern checks against `ty` does with a value of the type: it binds the names
that the check has bound, or it does not fit. It is no error. -/
theorem bindings?_of_shape (hrel : ∀ v ty, rel v ty → v.Shape R rel ty) {p : Pattern}
    {v : Value} {ty : Ty} {tys : Table Ty} (h : rel v ty)
    (hp : p.bindings? R ty = .ok (some tys)) :
    (∃ vals, p.bindings? R v = .ok (some vals) ∧ tys.Alike (fun ty v => rel v ty) vals) ∨
      p.bindings? R v = .ok none := by
  have hstep := inStep_fit hrel p h .empty
  rw [bindings?_eq_some.mp hp] at hstep
  generalize hout : outcome (p.fit R v) ∅ = out at hstep
  cases hstep with
  | fits halike => exact .inl ⟨_, bindings?_eq_some.mpr hout, halike⟩
  | onlyType => exact .inr (bindings?_eq_none.mpr (by rw [hout]))

/-! ### Values that inhabit the type -/

/-- What matching the pattern `p` with the type `ty` on a fresh table says about matching it with
the value `v` on a fresh table. -/
structure ValueFollowsType (R : Registry) (ty : Ty) (v : Value) (p : Pattern) : Prop where
  /-- If the type fits, the value is no error. It fits and binds the names that the type binds, in
  the same order, each to a value that inhabits the type bound there; or it does not fit and has
  bound the first few of these names. -/
  of_fits : ∀ tys, outcome (p.fit R ty) ∅ = (.ok true, tys) →
    (∃ vals, outcome (p.fit R v) ∅ = (.ok true, vals) ∧
      List.Forall₂ (fun a b => a.1 = b.1 ∧ b.2.Inhabits R a.2) tys.entries vals.entries) ∨
    ∃ vals, outcome (p.fit R v) ∅ = (.ok false, vals) ∧ vals.names <+: tys.names
  /-- If the type does not fit, neither does the value. -/
  of_not_fits : (outcome (p.fit R ty) ∅).1 = .ok false → (outcome (p.fit R v) ∅).1 = .ok false
  /-- If the type is an error, the value does not fit or is the same error. -/
  of_error : ∀ e, (outcome (p.fit R ty) ∅).1 = .error e →
    (outcome (p.fit R v) ∅).1 = .ok false ∨ (outcome (p.fit R v) ∅).1 = .error e

/-- Matching a type and matching a value that inhabits it agree, whatever the pattern: `bindings?`
on values follows `bindings?` on types, name by name and error by error. -/
theorem valueFollowsType_of_inhabits {R : Registry} {ty : Ty} {v : Value} (h : v.Inhabits R ty)
    (p : Pattern) : ValueFollowsType R ty v p := by
  have hstep := inStep_fit (fun _ _ => Value.HasTy.shape) p h .empty
  constructor
  · intro tys htys
    rw [htys] at hstep
    generalize outcome (p.fit R v) ∅ = out at hstep ⊢
    cases hstep with
    | fits halike => exact .inl ⟨_, rfl, halike⟩
    | onlyType hprefix => exact .inr ⟨_, rfl, hprefix⟩
  all_goals
    generalize outcome (p.fit R ty) ∅ = a at hstep ⊢
    generalize outcome (p.fit R v) ∅ = b at hstep ⊢
    cases hstep <;> simp

/-- Lists of numbers, as a registry that declares nothing else. -/
private def numberLists : Registry :=
  (outcome (Registry.declare "List" [("Nil", []), ("Cons", [.nat, .data "List"])]) ∅).2

/-- The list of the numbers 5 and 0 inhabits the type of lists, and `(Cons x (Cons 0 rest))` binds
the same names in the list and in its type. -/
theorem valueFollowsType_cons :
    (Value.constructed "Cons" [.number 5, .constructed "Cons" [.number 0, .constructed "Nil" []]]
      ).Inhabits numberLists (.data "List") ∧
    ValueFollowsType numberLists (.data "List")
      (.constructed "Cons" [.number 5, .constructed "Cons" [.number 0, .constructed "Nil" []]])
      (.construct "Cons" [.binding "x" none,
        .construct "Cons" [.number 0 none, .binding "rest" none] none] none) :=
  have hnil : (Value.constructed "Nil" []).Inhabits numberLists (.data "List") :=
    .constructed (show numberLists.constructor? "Nil" = some ⟨"Nil", "List", []⟩ from rfl) rfl .nil
  have hcons (n : Int) {v : Value} (hv : v.Inhabits numberLists (.data "List")) :
      (Value.constructed "Cons" [.number n, v]).Inhabits numberLists (.data "List") :=
    .constructed (show numberLists.constructor? "Cons" =
      some ⟨"Cons", "List", [.nat, .data "List"]⟩ from rfl) rfl (.cons (.number n) (.cons hv .nil))
  ⟨hcons 5 (hcons 0 hnil), valueFollowsType_of_inhabits (hcons 5 (hcons 0 hnil)) _⟩

end Pattern

end Casewise
