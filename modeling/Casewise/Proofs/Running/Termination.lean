import Casewise.Proofs.Running.Programs

/-!
# Programs without assignments come to an end

Evaluation follows closures into bodies that are no parts of the expression, so no measure of the
expression shows that it ends. The argument is a logical relation instead: a value belongs to a
function type if all its calls with values of the argument types come to an end and give values of
the result type, now and in all later states of the program. Where fields of constructors hold no
functions, this is a definition by recursion on the type, because data types then contain finished
values only. An assignment would change what names mean in scopes that closures have kept; without
one, later states only have more scopes, names and data types.

## Main definitions

* `Ty.hasArrow`: whether a type mentions functions.
* `Reducible`: the values of a type, by recursion on the type.
* `termination`: the forests of scopes as worlds of a model.

## Main statements

* `Reducible.of_agrees`: types that agree have the same values.
* `sound_evaluate_of_reducible`: evaluating an expression that checks comes to an end.
* `Program.comes_to_an_end`: a program that checks and assigns nothing comes to an end.
-/

namespace Casewise

/-! ### First-order data -/

mutual

/-- Whether the type mentions a function type. -/
def Ty.hasArrow : Ty → Bool
  | prim _ => false
  | arrow _ _ => true
  | pair first second => hasArrow first || hasArrow second
  | data _ => false
  | construct _ args _ => anyHasArrow args

/-- Whether one of the types mentions a function type. -/
def Ty.anyHasArrow : List Ty → Bool
  | [] => false
  | ty :: tys => hasArrow ty || anyHasArrow tys

end

/-- No field of a declared constructor holds functions. -/
def Registry.FirstOrder (R : Registry) : Prop :=
  ∀ info ∈ R.constructors, ∀ ty ∈ info.fields, ty.hasArrow = false

/-- The statement is no assignment, and declares no fields that hold functions. -/
def Stmt.Settled : Stmt → Prop
  | assign .. => False
  | data _ constructors _ => ∀ c ∈ constructors, ∀ ty ∈ c.fields, ty.hasArrow = false
  | _ => True

instance : DecidablePred Stmt.Settled
  | .define .. => .isTrue trivial
  | .assign .. => .isFalse id
  | .print .. => .isTrue trivial
  | .data _ constructors _ =>
    inferInstanceAs (Decidable (∀ c ∈ constructors, ∀ ty ∈ c.fields, ty.hasArrow = false))

/-- A registry stays `FirstOrder` if no fields with functions are declared. -/
theorem Registry.FirstOrder.of_declare {R R' : Registry} (hR : R.FirstOrder) {name : String}
    {constructors : List (String × List Ty)}
    (h : outcome (Registry.declare name constructors) R = (.ok (), R'))
    (hfields : ∀ c ∈ constructors, ∀ ty ∈ c.2, ty.hasArrow = false) : R'.FirstOrder := by
  intro info hinfo
  rw [Registry.constructors_of_declare h, List.mem_append] at hinfo
  rcases hinfo with hinfo | hinfo
  · exact hR info hinfo
  · obtain ⟨c, hc, rfl⟩ := List.mem_map.mp hinfo
    exact hfields c hc

/-! ### Worlds -/

/-- Trees of scopes whose data holds no functions. -/
abbrev ValueTree :=
  {f : Forest Value // f.Rooted ∧ (f.registry 0).FirstOrder}

/-- Trees of scopes as worlds. Running comes to its end, or finds no pattern that fits. -/
def scopeFrame : Frame ValueTree where
  Holds f m := m.scopes = f.1
  Reaches f f' := f.1.SameRoot f'.1
  Harmless := Stop.NoMatch
  reaches_refl f := .refl f.1
  reaches_trans := .trans
  le_of_reaches h := h.le
  holds_of_scopes_eq h hscopes := hscopes.trans h
  harmless_placedAt h := h.placedAt _

/-! ### Reducible values -/

mutual

/-- The values of a type: functions whose calls come to an end, pairs of values, and data whose
fields are values as well. -/
def Reducible : Ty → ValueTree → Value → Prop
  | .arrow inputs output, f, v =>
    v.isFunction = true ∧ ∀ f' ≥ f, ∀ args, AllReducible inputs f' args → ∀ head span,
      scopeFrame.Leads f' (fun depth => Evaluator.call (evaluate depth) v args head span)
        fun f'' result => Reducible output f'' result
  | .pair first second, f, v =>
    ∃ a b, v = .pair a b ∧ Reducible first f a ∧ Reducible second f b
  | .prim name, f, v => v.HasTy (f.1.registry 0) (fun _ _ _ => False) (.prim name)
  | .data name, f, v => v.HasTy (f.1.registry 0) (fun _ _ _ => False) (.data name)
  | .construct _ _ owner, f, v => v.HasTy (f.1.registry 0) (fun _ _ _ => False) (.data owner)

/-- Values of types, one by one. -/
def AllReducible : List Ty → ValueTree → List Value → Prop
  | [], _, vs => vs = []
  | ty :: tys, f, vs => ∃ v rest, vs = v :: rest ∧ Reducible ty f v ∧ AllReducible tys f rest

end

/-- `AllReducible` is a relation of lists, one by one. -/
theorem allReducible_iff {tys : List Ty} {f : ValueTree} {vs : List Value} :
    AllReducible tys f vs ↔ List.Forall₂ (fun v ty => Reducible ty f v) vs tys := by
  induction tys generalizing vs with
  | nil => rw [AllReducible, List.forall₂_nil_right_iff]
  | cons ty tys ih =>
    rw [AllReducible, List.forall₂_cons_right_iff]
    constructor
    · rintro ⟨v, rest, rfl, hv, hrest⟩
      exact ⟨v, rest, hv, ih.mp hrest, rfl⟩
    · rintro ⟨v, rest, hv, hrest, rfl⟩
      exact ⟨v, rest, rfl, hv, ih.mpr hrest⟩

namespace Reducible

variable {f f' : ValueTree}

/-- `Reducible` values stay so in later forests. -/
theorem mono (hf : f ≤ f') : ∀ {ty : Ty} {v : Value}, Reducible ty f v → Reducible ty f' v
  | .arrow _ _, _, h => by
    rw [Reducible] at h ⊢
    exact ⟨h.1, fun f'' hf'' => h.2 f'' (le_trans hf hf'')⟩
  | .pair _ _, _, h => by
    rw [Reducible] at h ⊢
    obtain ⟨a, b, rfl, ha, hb⟩ := h
    exact ⟨a, b, rfl, mono hf ha, mono hf hb⟩
  | .prim _, _, h => by
    rw [Reducible] at h ⊢
    exact h.mono hf.registry fun _ _ _ => id
  | .data _, _, h => by
    rw [Reducible] at h ⊢
    exact h.mono hf.registry fun _ _ _ => id
  | .construct _ _ _, _, h => by
    rw [Reducible] at h ⊢
    exact h.mono hf.registry fun _ _ _ => id

mutual

/-- Erasing the constructors in a type changes none of its `Reducible` values. -/
theorem erase_iff : ∀ {ty : Ty} {f : ValueTree} {v : Value},
    Reducible ty.erase f v ↔ Reducible ty f v
  | .arrow inputs output, f, v => by
    have houtput : Reducible output.erase = Reducible output := by
      funext f result
      exact propext erase_iff
    rw [Ty.erase, Reducible, Reducible, houtput]
    refine and_congr_right fun _ => forall₃_congr fun f' _ args => ?_
    rw [eraseAll_iff]
  | .pair first second, f, v => by
    rw [Ty.erase, Reducible, Reducible]
    refine exists₂_congr fun a b => and_congr_right fun _ => ?_
    exact and_congr erase_iff erase_iff
  | .prim _, _, _ => Iff.rfl
  | .data _, _, _ => Iff.rfl
  | .construct _ _ _, _, _ => by rw [Ty.erase, Reducible, Reducible]

theorem eraseAll_iff : ∀ {tys : List Ty} {f : ValueTree} {vs : List Value},
    AllReducible (Ty.eraseAll tys) f vs ↔ AllReducible tys f vs
  | [], _, _ => by rw [Ty.eraseAll]
  | ty :: tys, f, vs => by
    rw [Ty.eraseAll, AllReducible, AllReducible]
    refine exists₂_congr fun v rest => and_congr_right fun _ => ?_
    exact and_congr erase_iff eraseAll_iff

end

theorem of_agrees {ty ty' : Ty} (hty : ty.agrees ty' = true) {v : Value} (h : Reducible ty f v) :
    Reducible ty' f v := by
  rw [← erase_iff] at h ⊢
  rwa [← Ty.agrees_iff.mp hty]

/-- A value without functions in it that `HasTy` is `Reducible`. -/
theorem of_hasTy : ∀ {ty : Ty} {v : Value},
    v.HasTy (f.1.registry 0) (fun _ _ _ => False) ty → Reducible ty f v
  | .arrow _ _, _, h => by
    cases h with
    | function _ hfalse => exact hfalse.elim
    | constructed _ howner => cases howner
  | .pair _ _, _, h => by
    cases h with
    | pair ha hb =>
      rw [Reducible]
      exact ⟨_, _, rfl, of_hasTy ha, of_hasTy hb⟩
    | constructed _ howner => cases howner
  | .prim _, _, h => by rwa [Reducible]
  | .data _, _, h => by rwa [Reducible]
  | .construct name args owner, _, h => by
    have hagrees : (Ty.construct name args owner).agrees (.data owner) = true := by
      rw [Ty.agrees_iff, Ty.erase, Ty.erase]
    rw [Reducible]
    exact h.of_agrees (fun _ _ _ _ _ _ _ => id) hagrees

/-- A `Reducible` value of a data type has no functions in it. -/
theorem hasTy_of_owner {ty : Ty} {v : Value} {data : String} (howner : ty.owner? = some data)
    (h : Reducible ty f v) : v.HasTy (f.1.registry 0) (fun _ _ _ => False) ty := by
  cases ty with
  | data name => rwa [Reducible] at h
  | construct name args owner =>
    have hagrees : (Ty.data owner).agrees (.construct name args owner) = true := by
      rw [Ty.agrees_iff, Ty.erase, Ty.erase]
    rw [Reducible] at h
    exact h.of_agrees (fun _ _ _ _ _ _ _ => id) hagrees
  | _ => cases howner

/-- A `Reducible` value of a type that does not mention functions has no functions in it. -/
theorem hasTy : ∀ {ty : Ty} {v : Value}, ty.hasArrow = false → Reducible ty f v →
    v.HasTy (f.1.registry 0) (fun _ _ _ => False) ty
  | .arrow _ _, _, harrow, _ => by
    rw [Ty.hasArrow] at harrow
    cases harrow
  | .pair _ _, _, harrow, h => by
    rw [Ty.hasArrow, Bool.or_eq_false_iff] at harrow
    rw [Reducible] at h
    obtain ⟨a, b, rfl, ha, hb⟩ := h
    exact .pair (hasTy harrow.1 ha) (hasTy harrow.2 hb)
  | .prim _, _, _, h => by rwa [Reducible] at h
  | .data _, _, _, h => hasTy_of_owner rfl h
  | .construct _ _ _, _, _, h => hasTy_of_owner rfl h

theorem haveTys {tys : List Ty} {vs : List Value} (harrow : ∀ ty ∈ tys, ty.hasArrow = false)
    (h : List.Forall₂ (fun v ty => Reducible ty f v) vs tys) :
    Value.HaveTys (f.1.registry 0) (fun _ _ _ => False) vs tys := by
  induction h with
  | nil => exact .nil
  | cons hv _ ih =>
    obtain ⟨harrowv, harrow⟩ := List.forall_mem_cons.mp harrow
    exact .cons (hasTy harrowv hv) (ih harrow)

/-- A `Reducible` value has the `Shape` of its type. -/
theorem shape {ty : Ty} {v : Value} (h : Reducible ty f v) :
    v.Shape (f.1.registry 0) (fun v ty => Reducible ty f v) ty := by
  have hof {ty : Ty} {v : Value} (h : v.HasTy (f.1.registry 0) (fun _ _ _ => False) ty) :
      v.Shape (f.1.registry 0) (fun v ty => Reducible ty f v) ty :=
    h.shape.imp fun _ _ => of_hasTy
  cases ty with
  | arrow inputs output =>
    rw [Reducible] at h
    exact .function h.1 inputs output
  | pair first second =>
    rw [Reducible] at h
    obtain ⟨a, b, rfl, ha, hb⟩ := h
    exact .pair ha hb
  | prim name => exact hof (hasTy rfl h)
  | data name => exact hof (hasTy_of_owner rfl h)
  | construct name args owner => exact hof (hasTy_of_owner rfl h)

/-- Apart from functions, what has the `Shape` of a value of a type is `Reducible`. -/
theorem of_shape {ty : Ty} {v : Value} (hv : v.isFunction = false)
    (h : v.Shape (f.1.registry 0) (fun v ty => Reducible ty f v) ty) : Reducible ty f v := by
  cases h with
  | number n => exact of_hasTy (.number n)
  | boolean b => exact of_hasTy (.boolean b)
  | string s => exact of_hasTy (.string s)
  | function hfunction =>
    rw [hfunction] at hv
    cases hv
  | pair ha hb =>
    rw [Reducible]
    exact ⟨_, _, rfl, ha, hb⟩
  | constructed hinfo howner hfields =>
    have hfirstOrder := f.2.2 _ (Registry.mem_constructors hinfo)
    exact of_hasTy (.constructed hinfo howner (haveTys hfirstOrder hfields))

end Reducible

/-! ### The model -/

/-- The names mean in the scope what they should, to values of their types. -/
structure ValueTree.Means (f : ValueTree) (s : ScopeId) (look : Names) : Prop where
  /-- The scope belongs to the tree. -/
  size : s < f.1.scopes.size
  /-- A name that means something is bound to a value of its type. -/
  get?_eq_some : ∀ name ty, look name = some ty → ∃ v, f.1.get? s name = some v ∧ Reducible ty f v
  /-- A quoted name that means nothing is not bound. -/
  get?_eq_none : ∀ name, Text.isQuoted name = true → look name = none → f.1.get? s name = none

namespace ValueTree

variable {f f' : ValueTree} {m : Machine} {s : ScopeId} {look : Names}

theorem Means.mono (hf : f ≤ f') (h : f.Means s look) : f'.Means s look where
  size := Nat.lt_of_lt_of_le h.size hf.size
  get?_eq_some name ty hname := by
    obtain ⟨v, hget, hv⟩ := h.get?_eq_some name ty hname
    exact ⟨v, hf.get?_eq_some s h.size name v hget, hv.mono hf⟩
  get?_eq_none name hquoted hname :=
    hf.get?_eq_none s h.size name hquoted (h.get?_eq_none name hquoted hname)

/-- A new scope may bind its names to values of their types: a later `ValueTree` means them. -/
theorem exists_extend (hlook : f.Means s look) {bound : Table Ty} {vals : Table Value}
    (hbound : bound.Alike (fun ty v => Reducible ty f v) vals) :
    ∃ f' : ValueTree, f.1.SameRoot f'.1 ∧ (f.1.extend s vals).2 = f'.1 ∧
      f'.Means (f.1.extend s vals).1 (look.extend bound) := by
  have hroot := f.2.1.sameRoot_extend s vals
  have hfirstOrder : ((f.1.extend s vals).2.registry 0).FirstOrder := by
    rw [hroot.registry]
    exact f.2.2
  refine ⟨⟨(f.1.extend s vals).2, f.2.1.extend hlook.size vals, hfirstOrder⟩, hroot, rfl, ?_⟩
  constructor
  · exact Nat.lt_of_lt_of_eq (Nat.lt_succ_self _) (Array.size_push _).symm
  · intro name ty hname
    change ∃ v, (f.1.extend s vals).2.get? f.1.scopes.size name = some v ∧ _
    rw [f.2.1.get?_extend_self]
    rw [Names.extend] at hname
    cases hget : bound.get? name with
    | some ty' =>
      rw [hget] at hname
      obtain ⟨v, hval, hv⟩ := hbound.get?_eq_some hget
      cases hname
      exact ⟨v, by rw [hval, Option.some_or], hv.mono hroot.le⟩
    | none =>
      rw [hget, Option.none_or] at hname
      obtain ⟨v, hval, hv⟩ := hlook.get?_eq_some name ty hname
      exact ⟨v, by rw [hbound.get?_eq_none.mp hget, Option.none_or, hval], hv.mono hroot.le⟩
  · intro name hquoted hname
    change (f.1.extend s vals).2.get? f.1.scopes.size name = none
    rw [f.2.1.get?_extend_self]
    rw [Names.extend, Option.or_eq_none_iff] at hname
    rw [hbound.get?_eq_none.mp hname.1, Option.none_or, hlook.get?_eq_none name hquoted hname.2]

/-- The root binds the names of the table to values of their types, and knows the data types. -/
def Root (f : ValueTree) (t : Table Ty) (R : Registry) : Prop :=
  t.Alike (fun ty v => Reducible ty f v) (f.1.bindings 0) ∧ f.1.registry 0 = R

/-- The names of the root mean what they are bound to, by `Means`. -/
theorem means_of_root {t : Table Ty} {R : Registry} (h : f.Root t R) : f.Means 0 t.get? where
  size := f.2.1.size_pos
  get?_eq_some name ty hname := by
    rw [f.2.1.get?_root]
    exact h.1.get?_eq_some hname
  get?_eq_none name _ hname := by
    rw [f.2.1.get?_root]
    exact h.1.get?_eq_none.mp hname

/-- The root may bind a new name to a value of its type: a later `ValueTree` has it. -/
theorem exists_define {t : Table Ty} {R : Registry} (h : f.Root t R) {name : String} {v : Value}
    {ty : Ty} (hv : Reducible ty f v) (hname : t.get? name = none)
    (hquoted : Text.isQuoted name = false) :
    ∃ f' ≥ f, f.1.write 0 name v = f'.1 ∧ f'.Root (t.insert name ty) R := by
  have hfree := h.1.get?_eq_none.mp hname
  have hle : f.1 ≤ f.1.write 0 name v := f.2.1.grows_write hfree hquoted v
  have hregistry : (f.1.write 0 name v).registry 0 = f.1.registry 0 :=
    Forest.registry_write _ _ _ _ _
  have hfirstOrder : ((f.1.write 0 name v).registry 0).FirstOrder := by
    rw [hregistry]
    exact f.2.2
  let f' : ValueTree := ⟨f.1.write 0 name v, f.2.1.write 0 name v, hfirstOrder⟩
  have hf' : f ≤ f' := hle
  refine ⟨f', hf', rfl, ?_, hregistry.trans h.2⟩
  have hbindings : f'.1.bindings 0 = (f.1.bindings 0).insert name v := by
    rw [Forest.bindings_write _ _ _ _ _ f.2.1.size_pos, if_pos rfl]
  rw [hbindings]
  exact (h.1.insert hname hv).imp fun _ _ hv => hv.mono hf'

/-- The root may get to know another data type that keeps it `FirstOrder`. -/
theorem exists_declare {t : Table Ty} {R R' : Registry} (h : f.Root t R) {name : String}
    {constructors : List (String × List Ty)}
    (hdeclare : outcome (Registry.declare name constructors) R = (.ok (), R'))
    (hfields : ∀ c ∈ constructors, ∀ ty ∈ c.2, ty.hasArrow = false) :
    ∃ f' ≥ f, f.1.withRegistry R' = f'.1 ∧ f'.Root t R' := by
  obtain ⟨halike, rfl⟩ := h
  have hle : f.1 ≤ f.1.withRegistry R' := f.2.1.grows_withRegistry (Registry.le_of_declare hdeclare)
  have hregistry := f.2.1.registry_withRegistry R'
  have hfirstOrder : ((f.1.withRegistry R').registry 0).FirstOrder := by
    rw [hregistry]
    exact f.2.2.of_declare hdeclare hfields
  let f' : ValueTree := ⟨f.1.withRegistry R', f.2.1.withRegistry R', hfirstOrder⟩
  have hf' : f ≤ f' := hle
  exact ⟨f', hf', rfl, halike.imp fun _ _ hv => hv.mono hf', hregistry⟩

end ValueTree

theorem scopes_eq {f : ValueTree} {m : Machine} (hm : scopeFrame.Holds f m) : m.scopes = f.1 :=
  hm

/-- Trees of scopes as worlds of a model, with reducible values. -/
def reducibility : Model ValueTree where
  toFrame := scopeFrame
  Val f v ty := Reducible ty f v
  Env f s look := f.Means s look
  registry f := f.1.registry 0
  val_mono hf h := h.mono hf
  env_mono hf h := h.mono hf
  registry_mono hf := hf.registry
  val_agrees hty h := h.of_agrees hty
  shape h := h.shape
  val_of_shape hv h := .of_shape hv h
  registry_eq := @fun f _ _ _ hm hlook => by
    rw [scopes_eq hm]
    exact f.2.1.registry_eq hlook.size
  get?_eq_some hm hlook hname := by
    rw [scopes_eq hm]
    exact hlook.get?_eq_some _ _ hname
  get?_eq_none hm hlook hquoted hname := by
    rw [scopes_eq hm]
    exact hlook.get?_eq_none _ hquoted hname
  exists_extend hm hlook hbound := by
    rw [scopes_eq hm]
    exact ValueTree.exists_extend hlook hbound
  harmless_noMatch := id

theorem reducible_builtin (f : ValueTree) (b : Builtin) : Reducible b.signature f (.builtin b) := by
  rw [Builtin.signature, Reducible]
  refine ⟨rfl, fun f' _ args hargs head span => ?_⟩
  exact reducibility.leads_call_builtin (allReducible_iff.mp hargs) head span

/-- A constructor is `Reducible` at the type of functions from its fields to its data type. -/
theorem reducible_constructor {f : ValueTree} {name : String} {info : ConstructorInfo}
    (hinfo : (f.1.registry 0).constructor? name = some info) :
    Reducible (.arrow info.fields (.data info.data)) f (.constructor name info.arity) := by
  rw [Reducible]
  refine ⟨rfl, fun f' hf' args hargs head span => ?_⟩
  exact reducibility.leads_call_constructor (hf'.registry _ _ hinfo)
    (allReducible_iff.mp hargs) head span

/-- Trees of scopes as worlds of a model that can be carried through all statements but assignments
and declarations of fields that hold functions. -/
def termination : ProgramModel ValueTree where
  toModel := reducibility
  Root f t R := f.Root t R
  Allows := Stmt.Settled
  root_of_reaches h hroot :=
    ⟨h.bindings ▸ hroot.1.imp fun _ _ hv => hv.mono h.le, h.registry.trans hroot.2⟩
  registry_of_root hroot := hroot.2
  env_of_root hroot := ValueTree.means_of_root hroot
  rooted := @fun f _ hm => by
    rw [scopes_eq hm]
    exact f.2.1
  names_of_root hm hroot := by
    rw [scopes_eq hm]
    exact hroot.1.names_eq.symm
  val_constructor := reducible_constructor
  exists_define hm hroot hv hname hquoted := by
    rw [scopes_eq hm]
    exact ValueTree.exists_define hroot hv hname hquoted
  exists_assign hallows := hallows.elim
  exists_declare hallows hm hroot hdeclare := by
    rw [scopes_eq hm]
    refine ValueTree.exists_declare hroot hdeclare fun c hc => ?_
    obtain ⟨decl, hdecl, rfl⟩ := List.mem_map.mp hc
    exact hallows decl hdecl

/-! ### Coming to an end -/

/-- A call comes to an end if the function is `Reducible`. -/
theorem calls_reducibility : reducibility.Calls fun depth => evaluate depth := by
  intro f v inputs output args hv hargs head span
  have hv : Reducible (.arrow inputs output) f v := hv
  rw [Reducible] at hv
  exact hv.2 f (le_refl f) args (allReducible_iff.mpr hargs) head span

/-- A closure is `Reducible` if evaluating its body comes to an end. -/
theorem closes_reducibility : reducibility.Closes fun depth => evaluate depth := by
  intro f s look R param a b body hsound hbody hR hlook
  change Reducible (.arrow [a] b) f (.closure param body s)
  rw [Reducible]
  refine ⟨rfl, fun f₁ hf₁ args hargs head span => ?_⟩
  obtain ⟨arg, rest, harg, hrest, rfl⟩ := List.forall₂_cons_right_iff.mp (allReducible_iff.mp hargs)
  obtain rfl := List.forall₂_nil_right_iff.mp hrest
  have hbound : (Table.ofList [(param, a)]).Alike (fun ty v => reducibility.Val f₁ v ty)
      (.ofList [(param, arg)]) := .cons ⟨rfl, harg⟩ .nil
  refine (Model.leads_extend (reducibility.env_mono hf₁ hlook) hbound).bind fun f₂ hf₂ t ht => ?_
  have hR₁ := R.le_trans hR (reducibility.registry_mono hf₁)
  exact hsound hbody (reducibility.le_registry hf₂ hR₁) ht

/-- An expression that checks is `reducibility.Sound`: evaluating it comes to an end. -/
theorem sound_evaluate_of_reducible (e : Expr) :
    reducibility.Sound (fun depth => evaluate depth) e := by
  induction h : sizeOf e using Nat.strongRecOn generalizing e with
  | ind n ih =>
    subst h
    have hparts : ∀ part, sizeOf part < sizeOf e →
        reducibility.Sound (fun depth => evaluate depth) part :=
      fun part hpart => ih _ hpart part rfl
    have hnext := Model.sound_of_stepped
      (Model.sound_step calls_reducibility closes_reducibility hparts)
    intro f s look R ty hty hR hlook
    exact .of_succ (hnext hty hR hlook)

/-- The tree of scopes before the first statement. -/
def ValueTree.start (builtins : Bool) : ValueTree :=
  ⟨(Forest.newRoot {} (if builtins then Builtin.values else ∅)).2, .newRoot _, fun _ h => nomatch h⟩

theorem ValueTree.follows_start (builtins recording : Bool) :
    termination.Follows {} (Session.start builtins recording).context (start builtins) :=
  ProgramModel.follows_start ⟨Builtin.alike_start (reducible_builtin _) builtins, rfl⟩

/-- A program that is read from a text and `Accepted`, and whose statements are `Settled` (they
assign nothing and declare no fields that hold functions), comes to its end or finds no pattern that
fits, with and without the built-in functions: if evaluations may nest deep enough, running it
always has this outcome. -/
theorem Program.comes_to_an_end {file source : String} {p : Program}
    (hp : parse file source = .ok p)
    {builtins recording : Bool} {Γ : Context} (h : p.Accepted (Session.start builtins recording) Γ)
    (hsettled : ∀ s ∈ p, s.Settled) :
    ∃ bound r, (∀ depth ≥ bound, outcome
        (Execute.program depth (Session.start builtins recording).scope p)
        (Session.start builtins recording).machine = r) ∧
      (r.1 = .ok () ∨ ∃ stop, r.1 = .error stop ∧ stop.NoMatch) := by
  have hread := Program.readable_of_parse hp
  have hleads := ProgramModel.leads_program id sound_evaluate_of_reducible hread
    (h.checks_agrees hread) h.unquoted hsettled (ValueTree.follows_start builtins recording)
  have hstart : termination.free.Holds (.start builtins)
      (Session.start builtins recording).machine :=
    rfl
  obtain ⟨r, m', f', ⟨bound, hbound⟩, -, -, hr⟩ := hleads _ hstart
  refine ⟨bound, (r, m'), hbound, ?_⟩
  cases r with
  | ok u => exact .inl rfl
  | error stop => exact .inr ⟨stop, rfl, hr⟩

/-- A program that asks for the first member of a list without members, by a function that takes
functions. -/
private def headOfNil : String :=
  "(data List (Nil) (Cons Nat List))" ++
  "(define apply (lambda f (-> List Nat) (lambda l List (f l))))" ++
  "(define head (lambda l List (match l ((Cons h t) h))))" ++
  "(print ((apply head) Nil))"

/-- `headOfNil`, the first member of a list without members, comes to an end, or finds no pattern
that fits. -/
theorem Program.headOfNil_comes_to_an_end : ∃ p Γ, parse "head" headOfNil = .ok p ∧
    p.Accepted (Session.start false) Γ ∧ (∀ s ∈ p, s.Settled) ∧
    ∃ bound r, (∀ depth ≥ bound, outcome (Execute.program depth (Session.start false).scope p)
        (Session.start false).machine = r) ∧
      (r.1 = .ok () ∨ ∃ stop, r.1 = .error stop ∧ stop.NoMatch) := by
  have haccepts : (parse "head" headOfNil).toOption.any (fun p =>
      p.accepts (Session.start false) && p.all fun s => decide s.Settled) = true := by
    decide +kernel
  cases hp : parse "head" headOfNil with
  | error e =>
    rw [hp] at haccepts
    cases haccepts
  | ok p =>
    rw [hp] at haccepts
    obtain ⟨haccepts, hsettled⟩ := Bool.and_eq_true_iff.mp haccepts
    obtain ⟨Γ, h⟩ := Program.accepts_iff.mp haccepts
    have hsettled : ∀ s ∈ p, s.Settled := by simpa using hsettled
    exact ⟨p, Γ, rfl, h, hsettled, Program.comes_to_an_end hp h hsettled⟩

end Casewise
