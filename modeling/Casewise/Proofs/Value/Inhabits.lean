import Mathlib.Data.List.Forall2
import Casewise.Proofs.Scope.Registry
import Casewise.Proofs.Ty.Agreement
import Casewise.Value

/-!
# Values that inhabit types

Which values belong to a type is settled by the shape of the value: numbers, truth values and
strings by their kind, pairs component by component, and what a constructor built by the registry,
which knows its data type and the types of its fields. Only functions do not show their types; which
functions belong to which function types is left open in `Value.HasTy`, and any function will do in
`Value.Inhabits`.

## Main definitions

* `Value.HasTy`: values of a type, by a given account of functions.
* `Value.Inhabits`: values of a type, where functions count as values of all function types.
* `Value.Shape`: one layer of such an account, for arguments that look at a value no deeper.
-/

namespace Casewise.Value

/-- Whether the value is a function. -/
def isFunction : Value → Bool
  | closure .. | builtin _ | constructor .. => true
  | _ => false

mutual

/-- The values of a type, where `fn v inputs output` tells the functions `v` that take arguments of
the types `inputs` to results of the type `output`. -/
inductive HasTy (R : Registry) (fn : Value → List Ty → Ty → Prop) : Value → Ty → Prop
  | number (n : Int) : HasTy R fn (number n) .nat
  | boolean (b : Bool) : HasTy R fn (boolean b) .bool
  | string (s : String) : HasTy R fn (string s) .str
  | function {v : Value} {inputs : List Ty} {output : Ty} (hv : v.isFunction = true)
    (h : fn v inputs output) : HasTy R fn v (.arrow inputs output)
  | pair {a b : Value} {first second : Ty} (ha : HasTy R fn a first) (hb : HasTy R fn b second) :
    HasTy R fn (pair a b) (.pair first second)
  /-- What a constructor of the data type built from fields of the declared types. -/
  | constructed {name : String} {fields : List Value} {info : ConstructorInfo} {ty : Ty}
    (hinfo : R.constructor? name = some info) (howner : ty.owner? = some info.data)
    (hfields : HaveTys R fn fields info.fields) : HasTy R fn (constructed name fields) ty

/-- Values of types, one by one. -/
inductive HaveTys (R : Registry) (fn : Value → List Ty → Ty → Prop) : List Value → List Ty → Prop
  | nil : HaveTys R fn [] []
  | cons {v : Value} {vs : List Value} {ty : Ty} {tys : List Ty} (h : HasTy R fn v ty)
    (hs : HaveTys R fn vs tys) : HaveTys R fn (v :: vs) (ty :: tys)

end

/-- The values of a type over the data types of `R`; any function belongs to any function type. -/
def Inhabits (R : Registry) (v : Value) (ty : Ty) : Prop :=
  v.HasTy R (fun _ _ _ => True) ty

/-- One layer of a value of a type: what the value is built from is related to the types of the
parts by `rel`. -/
inductive Shape (R : Registry) (rel : Value → Ty → Prop) : Value → Ty → Prop
  | number (n : Int) : Shape R rel (number n) .nat
  | boolean (b : Bool) : Shape R rel (boolean b) .bool
  | string (s : String) : Shape R rel (string s) .str
  | function {v : Value} (hv : v.isFunction = true) (inputs : List Ty) (output : Ty) :
    Shape R rel v (.arrow inputs output)
  | pair {a b : Value} {first second : Ty} (ha : rel a first) (hb : rel b second) :
    Shape R rel (pair a b) (.pair first second)
  /-- What a constructor of the data type built from fields related to the declared types. -/
  | constructed {name : String} {fields : List Value} {info : ConstructorInfo} {ty : Ty}
    (hinfo : R.constructor? name = some info) (howner : ty.owner? = some info.data)
    (hfields : List.Forall₂ rel fields info.fields) : Shape R rel (constructed name fields) ty

variable {R R' : Registry} {fn fn' : Value → List Ty → Ty → Prop}

theorem haveTys_iff {vs : List Value} {tys : List Ty} :
    HaveTys R fn vs tys ↔ List.Forall₂ (HasTy R fn) vs tys := by
  induction vs generalizing tys with
  | nil => exact ⟨fun h => by cases h; exact .nil, fun h => by cases h; exact .nil⟩
  | cons v vs ih =>
    constructor
    · intro h
      cases h with | cons h hs => exact .cons h (ih.mp hs)
    · intro h
      cases h with | cons h hs => exact .cons h (ih.mpr hs)

theorem Shape.imp {rel rel' : Value → Ty → Prop} {v : Value} {ty : Ty} (h : v.Shape R rel ty)
    (hrel : ∀ v ty, rel v ty → rel' v ty) : v.Shape R rel' ty := by
  cases h with
  | number n => exact .number n
  | boolean b => exact .boolean b
  | string s => exact .string s
  | function hv inputs output => exact .function hv inputs output
  | pair ha hb => exact .pair (hrel _ _ ha) (hrel _ _ hb)
  | constructed hinfo howner hfields => exact .constructed hinfo howner (hfields.imp hrel)

/-- A value that `HasTy` has the `Shape` of its type, with parts that are values of their types. -/
theorem HasTy.shape {v : Value} {ty : Ty} (h : v.HasTy R fn ty) : v.Shape R (HasTy R fn) ty := by
  cases h with
  | number n => exact .number n
  | boolean b => exact .boolean b
  | string s => exact .string s
  | function hv _ => exact .function hv _ _
  | pair ha hb => exact .pair ha hb
  | constructed hinfo howner hfields => exact .constructed hinfo howner (haveTys_iff.mp hfields)

/-- Apart from functions, what has the `Shape` of a value of a type `HasTy`. -/
theorem HasTy.of_shape {v : Value} {ty : Ty} (hv : v.isFunction = false)
    (h : v.Shape R (HasTy R fn) ty) : v.HasTy R fn ty := by
  cases h with
  | number n => exact .number n
  | boolean b => exact .boolean b
  | string s => exact .string s
  | function hfunction => rw [hfunction] at hv; cases hv
  | pair ha hb => exact .pair ha hb
  | constructed hinfo howner hfields => exact .constructed hinfo howner (haveTys_iff.mpr hfields)

/-- A value of a type belongs to all types that agree with it, if functions do: `HasTy` respects
`agrees`. -/
theorem HasTy.of_agrees
    (hfn : ∀ v inputs output inputs' output', Ty.agreeAll inputs inputs' = true →
      output.agrees output' = true → fn v inputs output → fn v inputs' output')
    {v : Value} {ty ty' : Ty} (hty : ty.agrees ty' = true) : v.HasTy R fn ty → v.HasTy R fn ty'
  | .number n => Ty.eq_prim_of_agrees hty ▸ .number n
  | .boolean b => Ty.eq_prim_of_agrees hty ▸ .boolean b
  | .string s => Ty.eq_prim_of_agrees hty ▸ .string s
  | .function hv h => by
    obtain ⟨inputs, output, rfl, hinputs, houtput⟩ := Ty.eq_arrow_of_agrees hty
    exact .function hv (hfn _ _ _ _ _ hinputs houtput h)
  | .pair ha hb => by
    obtain ⟨first, second, rfl, hfirst, hsecond⟩ := Ty.eq_pair_of_agrees hty
    exact .pair (of_agrees hfn hfirst ha) (of_agrees hfn hsecond hb)
  | .constructed hinfo howner hfields =>
    .constructed hinfo ((Ty.owner?_eq_of_agrees hty).symm.trans howner) hfields

mutual

/-- `HasTy` stays when further data types are declared and further functions are counted as
functions of a type. -/
theorem HasTy.mono (hR : R ≤ R')
    (hfn : ∀ v inputs output, fn v inputs output → fn' v inputs output) :
    ∀ {v : Value} {ty : Ty}, v.HasTy R fn ty → v.HasTy R' fn' ty
  | _, _, .number n => .number n
  | _, _, .boolean b => .boolean b
  | _, _, .string s => .string s
  | _, _, .function hv h => .function hv (hfn _ _ _ h)
  | _, _, .pair ha hb => .pair (HasTy.mono hR hfn ha) (HasTy.mono hR hfn hb)
  | _, _, .constructed hinfo howner hfields =>
    .constructed (hR _ _ hinfo) howner (HaveTys.mono hR hfn hfields)

theorem HaveTys.mono (hR : R ≤ R')
    (hfn : ∀ v inputs output, fn v inputs output → fn' v inputs output) :
    ∀ {vs : List Value} {tys : List Ty}, HaveTys R fn vs tys → HaveTys R' fn' vs tys
  | _, _, .nil => .nil
  | _, _, .cons h hs => .cons (HasTy.mono hR hfn h) (HaveTys.mono hR hfn hs)

end

theorem HasTy.inhabits {v : Value} {ty : Ty} (h : v.HasTy R fn ty) : v.Inhabits R ty :=
  h.mono R.le_refl fun _ _ _ _ => trivial

end Casewise.Value
