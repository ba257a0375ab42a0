import Casewise.Proofs.Typing.Causes

/-!
# Data types that occur in types

A type mentions data types, at any depth. Where do the data types come from that the type of an
expression mentions? From the types of names, from the declared constructors, and from the types
that the expression itself gives to parameters; inference adds no others. So if all of these are
within a collection of data types, the type of the expression is.

## Main definitions

* `Ty.mentions`, `Ty.Within`: the data types that occur in a type.
* `Registry.Closed`: the declared constructors mention declared data types only.
* `Context.Within`: contexts that mention known data types only.

## Main statements

* `Ty.closedKind_within`: the types within known data types are a closed kind.
* `Registry.Closed.declare`: when a declaration keeps a registry closed.
-/

namespace Casewise

/-! ### Types -/

/-- The data types that occur in a type. -/
def Ty.mentions (ty : Ty) : List String :=
  ty.parts.filterMap Ty.owner?

/-- Every data type that occurs in the type is known. -/
def Ty.Within (known : String → Prop) (ty : Ty) : Prop :=
  ∀ name ∈ ty.mentions, known name

namespace Ty

variable {known known' : String → Prop}

/-- A type is `Within` the known data types if its `parts` belong to known data types. -/
theorem within_iff {ty : Ty} :
    ty.Within known ↔ ∀ part ∈ ty.parts, ∀ name, part.owner? = some name → known name := by
  simp only [Within, mentions, List.mem_filterMap]
  constructor
  · intro h part hpart name hname
    exact h name ⟨part, hpart, hname⟩
  · rintro h name ⟨part, hpart, hname⟩
    exact h part hpart name hname

theorem Within.mono {ty : Ty} (h : ty.Within known) (hknown : ∀ name, known name → known' name) :
    ty.Within known' :=
  fun name hname => hknown name (h name hname)

@[simp]
theorem within_prim (name : String) : (prim name).Within known := by
  intro owner howner
  simp [mentions, parts, owner?] at howner

@[simp]
theorem within_data {name : String} : (data name).Within known ↔ known name := by
  simp [Within, mentions, parts, owner?]

@[simp]
theorem within_arrow {inputs : List Ty} {output : Ty} :
    (arrow inputs output).Within known ↔
      (∀ ty ∈ inputs, ty.Within known) ∧ output.Within known := by
  simp only [within_iff, parts, List.mem_cons, List.mem_append, mem_partsAll]
  constructor
  · intro h
    exact ⟨fun ty hty part hpart => h part (.inr (.inl ⟨ty, hty, hpart⟩)),
      fun part hpart => h part (.inr (.inr hpart))⟩
  · rintro ⟨hinputs, houtput⟩ part (rfl | ⟨ty, hty, hpart⟩ | hpart)
    · intro name hname
      cases hname
    · exact hinputs ty hty part hpart
    · exact houtput part hpart

@[simp]
theorem within_pair {first second : Ty} :
    (pair first second).Within known ↔ first.Within known ∧ second.Within known := by
  simp only [within_iff, parts, List.mem_cons, List.mem_append]
  constructor
  · intro h
    exact ⟨fun part hpart => h part (.inr (.inl hpart)),
      fun part hpart => h part (.inr (.inr hpart))⟩
  · rintro ⟨hfirst, hsecond⟩ part (rfl | hpart | hpart)
    · intro name hname
      cases hname
    · exact hfirst part hpart
    · exact hsecond part hpart

/-- The type of a constructor is `Within` the known data types if its data type is known and its
arguments are. -/
@[simp]
theorem within_construct {name : String} {args : List Ty} {owner : String} :
    (construct name args owner).Within known ↔ known owner ∧ ∀ ty ∈ args, ty.Within known := by
  simp only [within_iff, parts, List.mem_cons, mem_partsAll]
  constructor
  · intro h
    exact ⟨h _ (.inl rfl) owner rfl, fun ty hty part hpart => h part (.inr ⟨ty, hty, hpart⟩)⟩
  · rintro ⟨howner, hargs⟩ part (rfl | ⟨ty, hty, hpart⟩) other hother
    · cases hother
      exact howner
    · exact hargs ty hty part hpart other hother

/-- The types `Within` the known data types are a closed kind. -/
theorem closedKind_within : ClosedKind (Within known) where
  builtin hbuiltin := by
    rw [eq_prim_of_builtin? hbuiltin]
    exact within_prim _
  arrow_iff := within_arrow
  pair_iff := within_pair
  construct howner hargs := within_construct.mpr ⟨within_data.mp howner, hargs⟩

end Ty

/-! ### Declared data types -/

namespace Registry

variable {R R' : Registry}

/-- The data type is declared. -/
def Knows (R : Registry) (name : String) : Prop :=
  (R.data? name).isSome = true

/-- The declared constructors build declared data types, and their fields mention declared data
types only. -/
structure Closed (R : Registry) : Prop where
  /-- The data type that a constructor builds is declared. -/
  knows : ∀ {name info}, R.constructor? name = some info → R.Knows info.data
  /-- The data types that a field mentions are declared. -/
  within : ∀ {name info}, R.constructor? name = some info → ∀ ty ∈ info.fields, ty.Within R.Knows

theorem Closed.empty : (∅ : Registry).Closed where
  knows h := nomatch h
  within h := nomatch h

/-- The declared data type is known after `declare`, beside those known before. -/
theorem knows_of_declare {name : String} {constructors : List (String × List Ty)}
    (h : outcome (Registry.declare name constructors) R = (.ok (), R')) (other : String) :
    R'.Knows other ↔ other = name ∨ R.Knows other := by
  rw [Knows, data?_of_declare h]
  split
  · next hname => simp [hname]
  · next hname => simp [hname, Knows]

/-- `declare` keeps a registry `Closed` if the fields mention declared data types, or the one that
is being declared. -/
theorem Closed.declare (hR : R.Closed) {name : String} {constructors : List (String × List Ty)}
    (h : outcome (Registry.declare name constructors) R = (.ok (), R'))
    (hfields : ∀ c ∈ constructors, ∀ ty ∈ c.2,
      ty.Within fun other => other = name ∨ R.Knows other) :
    R'.Closed := by
  have hconstructor : ∀ {c info}, R'.constructor? c = some info →
      R'.Knows info.data ∧ ∀ ty ∈ info.fields, ty.Within R'.Knows := by
    intro c info hinfo
    rcases (constructor?_of_declare h).mp hinfo with hold | ⟨fields, hmem, rfl⟩
    · have hknows : ∀ other, R.Knows other → R'.Knows other := fun other hother =>
        (knows_of_declare h other).mpr (.inr hother)
      exact ⟨hknows _ (hR.knows hold), fun ty hty => (hR.within hold ty hty).mono hknows⟩
    · refine ⟨(knows_of_declare h name).mpr (.inl rfl), fun ty hty => ?_⟩
      exact (hfields _ hmem ty hty).mono fun other => (knows_of_declare h other).mpr
  exact ⟨fun hinfo => (hconstructor hinfo).1, fun hinfo => (hconstructor hinfo).2⟩

end Registry

/-- `allDeclared` is passed by several types if each of them passes `declared`. -/
theorem Check.allDeclared_eq_ok {own : String} {span : Option Span} {R : Registry} {tys : List Ty} :
    Check.allDeclared own span R tys = .ok () ↔
      ∀ ty ∈ tys, Check.declared own span R ty = .ok () := by
  induction tys with
  | nil => simp [Check.allDeclared]
  | cons ty tys ih =>
    rw [Check.allDeclared, bind_eq_ok, List.forall_mem_cons, ← ih]
    constructor
    · rintro ⟨u, hty, htys⟩
      exact ⟨hty, htys⟩
    · rintro ⟨hty, htys⟩
      exact ⟨⟨⟩, hty, htys⟩

/-- Fields of a type that has been read mention data types that are declared, or the one that is
being declared, if they pass `Check.declared`. -/
theorem Check.within_of_declared {own : String} {span : Option Span} {R : Registry} {d : Declared}
    {ty : Ty} (hty : ty.Readable d) (h : Check.declared own span R ty = .ok ()) :
    ty.Within fun name => name = own ∨ R.Knows name := by
  induction hty with
  | prim => exact Ty.within_prim _
  | arrow _ _ _ ihInputs ihOutput =>
    rw [declared, bind_eq_ok] at h
    obtain ⟨u, hinputs, houtput⟩ := h
    rw [allDeclared_eq_ok] at hinputs
    exact Ty.within_arrow.mpr ⟨fun ty hty => ihInputs ty hty (hinputs ty hty), ihOutput houtput⟩
  | pair _ _ ihFirst ihSecond =>
    rw [declared, bind_eq_ok] at h
    obtain ⟨u, hfirst, hsecond⟩ := h
    exact Ty.within_pair.mpr ⟨ihFirst hfirst, ihSecond hsecond⟩
  | data =>
    rw [declared] at h
    split at h
    · next hknown => exact Ty.within_data.mpr hknown
    · cases h

/-! ### Statements -/

namespace Stmt.Checks

variable {agree : Ty → Ty → Bool} {Γ Γ' : Context} {st : Stmt} {d : Declared}

/-- Checking a statement keeps what the registry `Knows`. -/
theorem knows (h : st.Checks agree Γ Γ') {name : String} (hname : Γ.registry.Knows name) :
    Γ'.registry.Knows name := by
  cases h with
  | data _ _ hdeclare => exact (Registry.knows_of_declare hdeclare name).mpr (.inr hname)
  | _ => exact hname

variable {own : String} {cs : List ConstructorDecl} {span : Option Span}

theorem knows_data (h : (Stmt.data own cs span).Checks agree Γ Γ') : Γ'.registry.Knows own := by
  cases h with
  | data _ _ hdeclare => exact (Registry.knows_of_declare hdeclare own).mpr (.inl rfl)

/-- The fields in a data declaration that `Checks` mention data types that are declared before, or
the one that is being declared. -/
theorem within_fields (h : (Stmt.data own cs span).Checks agree Γ Γ')
    (hread : (Stmt.data own cs span).Readable d) :
    ∀ c ∈ cs, ∀ ty ∈ c.fields, ty.Within fun name => name = own ∨ Γ.registry.Knows name := by
  intro c hc ty hty
  cases h with
  | data _ hfields _ =>
    cases hread with
    | data _ _ hread =>
      have hdeclared := Check.allDeclared_eq_ok.mp (hfields c hc) ty hty
      exact Check.within_of_declared (hread c hc ty hty) hdeclared

/-- The `declaredTys` of a statement that checks mention data types that are declared afterwards. -/
theorem within_declaredTys (h : st.Checks agree Γ Γ') (hread : st.Readable d) :
    ∀ ty ∈ st.declaredTys, ty.Within Γ'.registry.Knows := by
  cases st with
  | data own cs span =>
    refine List.forall_mem_cons.mpr ⟨Ty.within_data.mpr h.knows_data, fun ty hty => ?_⟩
    obtain ⟨c, hc, hty⟩ := List.mem_flatMap.mp hty
    refine (h.within_fields hread c hc ty hty).mono ?_
    rintro name (rfl | hname)
    · exact h.knows_data
    · exact h.knows hname
  | _ => exact fun ty hty => nomatch hty

/-- Checking a statement keeps a registry `Closed`. -/
theorem closed (h : st.Checks agree Γ Γ') (hread : st.Readable d) (hΓ : Γ.registry.Closed) :
    Γ'.registry.Closed := by
  cases st with
  | data own cs span =>
    have hfields := h.within_fields hread
    cases h with
    | data _ _ hdeclare =>
      refine hΓ.declare hdeclare fun c hc ty hty => ?_
      obtain ⟨c', hc', rfl⟩ := List.mem_map.mp hc
      exact hfields c' hc' ty hty
  | _ =>
    cases h
    exact hΓ

end Stmt.Checks

/-! ### Contexts -/

/-- Everything that is bound or declared in the context mentions known data types only. -/
structure Context.Within (known : String → Prop) (Γ : Context) : Prop where
  /-- The names have types within the known data types. -/
  levels : ∀ level ∈ Γ.levels, level.All (Ty.Within known)
  /-- The declared data types are known. -/
  knows : ∀ name, Γ.registry.Knows name → known name
  /-- The declared constructors mention declared data types. -/
  closed : Γ.registry.Closed

namespace Context.Within

variable {known : String → Prop} {Γ : Context} {agree : Ty → Ty → Bool}

theorem ofKind (h : Γ.Within known) : Γ.OfKind (Ty.Within known) where
  levels := h.levels
  data hinfo := Ty.within_data.mpr (h.knows _ (h.closed.knows hinfo))
  fields hinfo ty hty := (h.closed.within hinfo ty hty).mono h.knows

theorem get? (h : Γ.Within known) {name : String} {ty : Ty} (hname : Γ.get? name = some ty) :
    ty.Within known :=
  h.ofKind.get? hname

end Context.Within

end Casewise
