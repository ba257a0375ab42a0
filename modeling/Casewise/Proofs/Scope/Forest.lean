import Mathlib.Order.Basic
import Casewise.Proofs.Scope.Registry
import Casewise.Proofs.Table
import Casewise.Scope.Forest
import Casewise.Text.Literal

/-!
# Growing forests

A program runs in one tree of scopes. New scopes are added inside old ones and keep their bindings;
only the root, the scope with the number 0, gets new names and new values. So what a name means in
an old scope stays, as long as no new name of the root stands where something has been looked up in
vain. Only quoted names are looked up in vain, and they are never bound at the root.

## Main definitions

* `Forest.Rooted`: all scopes stand in one tree and share one registry.
* `Forest.Live`: a scope of a forest that has a registry there.
* `Forest.Grows`: what names mean in the scopes of a forest, they mean in a later one.
* `Forest.SameRoot`: later forests with the same root.
* `Forest.Alike`: two forests of the same shape with related bindings.

## Main statements

* `Forest.Rooted.grows_extend`, `Forest.Rooted.grows_write`, `Forest.Rooted.grows_withRegistry`: new
  scopes, new names of the root and new data types let a forest grow.
* `Forest.Alike.extend`, `Forest.Alike.write`, `Forest.Alike.withRegistry`: doing the same to alike
  forests keeps them alike.
-/

namespace Casewise.Forest

variable {α β : Type}

/-! ### Scopes after a change -/

section Changes

variable (f : Forest α) (s t : ScopeId) (name other : String) (a : α) (bound : Table α)

theorem getElem?_extend_of_ne (h : t ≠ f.scopes.size) :
    (f.extend s bound).2.scopes[t]? = f.scopes[t]? := by
  rw [extend, Array.getElem?_push, if_neg h]

theorem bindings_extend_self : (f.extend s bound).2.bindings f.scopes.size = bound := by
  rw [bindings, extend, Array.getElem?_push_size]

theorem path_extend_self : (f.extend s bound).2.path f.scopes.size = f.scopes.size :: f.path s := by
  rw [path, extend, Array.getElem?_push_size]

theorem path_extend_of_ne (h : t ≠ f.scopes.size) : (f.extend s bound).2.path t = f.path t := by
  rw [path, path, getElem?_extend_of_ne f s t bound h]

theorem bindings_extend_of_ne (h : t ≠ f.scopes.size) :
    (f.extend s bound).2.bindings t = f.bindings t := by
  rw [bindings, bindings, getElem?_extend_of_ne f s t bound h]

theorem registry_extend_of_ne (h : t ≠ f.scopes.size) :
    (f.extend s bound).2.registry t = f.registry t := by
  rw [registry, registry, getElem?_extend_of_ne f s t bound h]
  rfl

/-- `write` leaves the scopes where they are. -/
theorem path_write : (f.write s name a).path t = f.path t := by
  rw [path, path, write, Array.getElem?_modify]
  by_cases h : s = t
  · rw [if_pos h]
    cases f.scopes[t]? <;> rfl
  · rw [if_neg h]

/-- `write` binds a name in its scope and nowhere else. -/
theorem bindings_write (hs : s < f.scopes.size) :
    (f.write s name a).bindings t =
      if t = s then (f.bindings s).insert name a else f.bindings t := by
  by_cases h : t = s
  · obtain rfl := h
    rw [if_pos rfl, bindings, bindings, write, Array.getElem?_modify, if_pos rfl,
      Array.getElem?_eq_getElem hs]
    rfl
  · rw [if_neg h, bindings, bindings, write, Array.getElem?_modify, if_neg fun e => h e.symm]

/-- `write` keeps the data types. -/
theorem registry_write : (f.write s name a).registry t = f.registry t := by
  rw [registry, registry, write, Array.getElem?_modify]
  by_cases h : s = t
  · rw [if_pos h]
    cases f.scopes[t]? <;> rfl
  · rw [if_neg h]

theorem size_write : (f.write s name a).scopes.size = f.scopes.size := by
  rw [write, Array.size_modify]

end Changes

/-! ### Registries of scopes -/

section Declaring

variable {f f' : Forest α} {s : ScopeId} {name : String} {constructors : List (String × List Ty)}

theorem scopes_setRegistry (f : Forest α) (s : ScopeId) (R : Registry) :
    (f.setRegistry s R).scopes = f.scopes := by
  rw [setRegistry]
  split <;> rfl

theorem setRegistry_registry (f : Forest α) (s : ScopeId) : f.setRegistry s (f.registry s) = f := by
  rw [setRegistry, registry]
  cases f.scopes[s]? with
  | none => rfl
  | some scope =>
    have hmodify : (f.registries.modify scope.registry fun _ =>
        f.registries[scope.registry]?.getD {}) = f.registries := by
      refine Array.ext_getElem? fun n => ?_
      rw [Array.getElem?_modify]
      split
      · next hn =>
        rw [hn]
        cases f.registries[n]? <;> rfl
      · rfl
    exact congrArg (Forest.mk f.scopes) hmodify

theorem outcome_declare_eq {r : Except LangError Unit} :
    outcome (declare s name constructors) f = (r, f') ↔
      ∃ R, outcome (Registry.declare name constructors) (f.registry s) = (r, R) ∧
        f' = f.setRegistry s R :=
  outcome_onPart_eq

theorem eq_of_declare_error {e : LangError}
    (h : outcome (declare s name constructors) f = (.error e, f')) : f' = f := by
  obtain ⟨R, hR, rfl⟩ := outcome_declare_eq.mp h
  rw [(Registry.declare_eq_error hR).2, setRegistry_registry]

theorem scopes_of_declare {r : Except LangError Unit}
    (h : outcome (declare s name constructors) f = (r, f')) : f'.scopes = f.scopes := by
  obtain ⟨R, -, rfl⟩ := outcome_declare_eq.mp h
  exact scopes_setRegistry f s R

end Declaring

/-! ### One tree -/

/-- What is found in a list depends only on what is found at its members. -/
theorem findSome?_congr {γ : Type} {find find' : γ → Option α} {l : List γ}
    (h : ∀ c ∈ l, find c = find' c) : l.findSome? find = l.findSome? find' := by
  induction l with
  | nil => rfl
  | cons c l ih =>
    obtain ⟨hc, hl⟩ := List.forall_mem_cons.mp h
    rw [List.findSome?_cons, List.findSome?_cons, hc, ih hl]

/-- All scopes stand in one tree, whose root is the scope 0, and share one registry. -/
structure Rooted (f : Forest α) : Prop where
  /-- There is a root. -/
  size_pos : 0 < f.scopes.size
  /-- There is a registry. -/
  registries_pos : 0 < f.registries.size
  /-- Around every scope stands the root, and nothing around the root. -/
  path : ∀ s < f.scopes.size, ∃ inner, f.path s = inner ++ [0] ∧ 0 ∉ inner
  /-- Around every scope stand scopes of the forest. -/
  mem_path : ∀ s, ∀ t ∈ f.path s, t < f.scopes.size
  /-- Every scope uses the first registry. -/
  registry : ∀ (s : ScopeId) (scope : Scope α), f.scopes[s]? = some scope → scope.registry = 0

namespace Rooted

variable {f : Forest α}

theorem path_root (h : f.Rooted) : f.path 0 = [0] := by
  obtain ⟨inner, hpath, hinner⟩ := h.path 0 h.size_pos
  rw [hpath]
  rw [Forest.path, Array.getElem?_eq_getElem h.size_pos] at hpath
  cases inner with
  | nil => rfl
  | cons s inner =>
    obtain ⟨rfl, -⟩ := List.cons.inj hpath
    exact absurd List.mem_cons_self hinner

theorem get?_root (h : f.Rooted) (name : String) : f.get? 0 name = (f.bindings 0).get? name := by
  rw [get?, h.path_root, List.findSome?_cons]
  cases (f.bindings 0).get? name <;> rfl

/-- In a `Rooted` forest every scope knows the data types that the root knows. -/
theorem registry_eq (h : f.Rooted) {s : ScopeId} (hs : s < f.scopes.size) :
    f.registry s = f.registry 0 := by
  have hzero := h.registry 0 _ (Array.getElem?_eq_getElem h.size_pos)
  have hscope := h.registry s _ (Array.getElem?_eq_getElem hs)
  rw [Forest.registry, Forest.registry, Array.getElem?_eq_getElem hs,
    Array.getElem?_eq_getElem h.size_pos]
  simp only
  rw [hzero, hscope]

theorem get?_extend (h : f.Rooted) (s : ScopeId) {t : ScopeId} (ht : t < f.scopes.size)
    (bound : Table α) (name : String) : (f.extend s bound).2.get? t name = f.get? t name := by
  rw [get?, get?, path_extend_of_ne f s t bound (Nat.ne_of_lt ht)]
  refine findSome?_congr fun u hu => ?_
  rw [bindings_extend_of_ne f s u bound (Nat.ne_of_lt (h.mem_path t u hu))]

theorem get?_extend_self (h : f.Rooted) (s : ScopeId) (bound : Table α) (name : String) :
    (f.extend s bound).2.get? f.scopes.size name = (bound.get? name).or (f.get? s name) := by
  rw [get?, path_extend_self, List.findSome?_cons, bindings_extend_self]
  cases bound.get? name with
  | some a => rfl
  | none =>
    rw [Option.none_or, get?]
    refine findSome?_congr fun u hu => ?_
    rw [bindings_extend_of_ne f s u bound (Nat.ne_of_lt (h.mem_path s u hu))]

/-- A new name of the root means in every scope what it meant before, or else its new value, by
`get?`. -/
theorem get?_write (h : f.Rooted) {name : String} (hname : (f.bindings 0).get? name = none) (a : α)
    {s : ScopeId} (hs : s < f.scopes.size) (other : String) :
    (f.write 0 name a).get? s other =
      (f.get? s other).or (if other = name then some a else none) := by
  obtain ⟨inner, hpath, hinner⟩ := h.path s hs
  have hbindings : ∀ t ∈ inner, (f.write 0 name a).bindings t = f.bindings t := by
    intro t ht
    rw [bindings_write f 0 t name a h.size_pos, if_neg]
    rintro rfl
    exact hinner ht
  -- inside the root nothing changes, and the root comes last
  have hfind : inner.findSome? (fun t => ((f.write 0 name a).bindings t).get? other) =
      inner.findSome? fun t => (f.bindings t).get? other :=
    findSome?_congr fun t ht => by rw [hbindings t ht]
  rw [get?, get?, path_write, hpath, List.findSome?_append, List.findSome?_append, hfind,
    List.findSome?_singleton, List.findSome?_singleton, bindings_write f 0 0 name a h.size_pos,
    if_pos rfl, Table.get?_insert, Option.or_assoc]
  congr 1
  split
  · next hother => rw [hother, hname, Option.none_or]
  · rw [Option.or_none]

end Rooted

/-- The forest with other data types. -/
def withRegistry (f : Forest α) (R : Registry) : Forest α :=
  { f with registries := f.registries.modify 0 fun _ => R }

namespace Rooted

variable {f : Forest α}

/-- The `registry` of the root is the one it was given. -/
theorem registry_withRegistry (h : f.Rooted) (R : Registry) :
    (f.withRegistry R).registry 0 = R := by
  have hzero := h.registry 0 _ (Array.getElem?_eq_getElem h.size_pos)
  rw [Forest.registry, withRegistry, Array.getElem?_eq_getElem h.size_pos]
  simp only
  rw [hzero, Array.getElem?_modify, if_pos rfl, Array.getElem?_eq_getElem h.registries_pos]
  rfl

theorem setRegistry_eq (h : f.Rooted) (R : Registry) : f.setRegistry 0 R = f.withRegistry R := by
  have hzero := h.registry 0 _ (Array.getElem?_eq_getElem h.size_pos)
  rw [setRegistry, Array.getElem?_eq_getElem h.size_pos]
  simp only
  rw [hzero]
  rfl

theorem outcome_declare_eq (h : f.Rooted) {name : String} {constructors : List (String × List Ty)}
    {r : Except LangError Unit} {f' : Forest α} :
    outcome (declare 0 name constructors) f = (r, f') ↔
      ∃ R, outcome (Registry.declare name constructors) (f.registry 0) = (r, R) ∧
        f' = f.withRegistry R := by
  rw [Forest.outcome_declare_eq]
  simp only [h.setRegistry_eq]

/-- `Rooted` is kept by `extend`. -/
theorem extend (h : f.Rooted) {s : ScopeId} (hs : s < f.scopes.size) (bound : Table α) :
    (f.extend s bound).2.Rooted := by
  have hsize : (f.extend s bound).2.scopes.size = f.scopes.size + 1 := by
    rw [Forest.extend, Array.size_push]
  have hold {t : Nat} (ht : t < (f.extend s bound).2.scopes.size) (hnew : t ≠ f.scopes.size) :
      t < f.scopes.size := by
    omega
  have hkept {t : Nat} (ht : t ≤ f.scopes.size) : t < (f.extend s bound).2.scopes.size := by
    omega
  constructor
  · exact hkept (Nat.zero_le _)
  · exact h.registries_pos
  · intro t ht
    by_cases hnew : t = f.scopes.size
    · obtain ⟨inner, hpath, hinner⟩ := h.path s hs
      refine ⟨t :: inner, ?_, ?_⟩
      · rw [hnew, path_extend_self, hpath, List.cons_append]
      · rw [List.mem_cons, not_or, hnew]
        exact ⟨Nat.ne_of_lt h.size_pos, hinner⟩
    · rw [path_extend_of_ne f s t bound hnew]
      exact h.path t (hold ht hnew)
  · intro t u hu
    by_cases hnew : t = f.scopes.size
    · rw [hnew, path_extend_self] at hu
      rcases List.mem_cons.mp hu with rfl | hu
      · exact hkept (Nat.le_refl _)
      · exact hkept (Nat.le_of_lt (h.mem_path s u hu))
    · rw [path_extend_of_ne f s t bound hnew] at hu
      exact hkept (Nat.le_of_lt (h.mem_path t u hu))
  · intro t scope hscope
    by_cases hnew : t = f.scopes.size
    · rw [hnew, Forest.extend, Array.getElem?_push_size] at hscope
      cases hscope
      simp only
      rw [Array.getElem?_eq_getElem hs]
      exact h.registry s _ (Array.getElem?_eq_getElem hs)
    · rw [getElem?_extend_of_ne f s t bound hnew] at hscope
      exact h.registry t scope hscope

/-- `Rooted` is kept by `write`. -/
theorem write (h : f.Rooted) (s : ScopeId) (name : String) (a : α) : (f.write s name a).Rooted := by
  constructor
  · rw [size_write]
    exact h.size_pos
  · exact h.registries_pos
  · intro t ht
    rw [size_write] at ht
    rw [path_write]
    exact h.path t ht
  · intro t u hu
    rw [path_write] at hu
    rw [size_write]
    exact h.mem_path t u hu
  · intro t scope hscope
    rw [Forest.write, Array.getElem?_modify] at hscope
    by_cases hst : s = t
    · rw [if_pos hst, Option.map_eq_some_iff] at hscope
      obtain ⟨scope, hscope, rfl⟩ := hscope
      exact h.registry t scope hscope
    · rw [if_neg hst] at hscope
      exact h.registry t scope hscope

/-- `Rooted` is kept by `withRegistry`. -/
theorem withRegistry (h : f.Rooted) (R : Registry) : (f.withRegistry R).Rooted where
  size_pos := h.size_pos
  registries_pos := by
    rw [Forest.withRegistry, Array.size_modify]
    exact h.registries_pos
  path := h.path
  mem_path := h.mem_path
  registry := h.registry

/-- The tree of a single root is `Rooted`. -/
theorem newRoot (bindings : Table α) : (Forest.newRoot ({} : Forest α) bindings).2.Rooted := by
  constructor
  · exact Nat.one_pos
  · exact Nat.one_pos
  · intro s hs
    obtain rfl := Nat.lt_one_iff.mp hs
    exact ⟨[], rfl, List.not_mem_nil⟩
  · intro s t ht
    cases s with
    | zero =>
      obtain rfl := List.mem_singleton.mp ht
      exact Nat.one_pos
    | succ s => cases ht
  · intro s scope hscope
    cases s with
    | zero => cases hscope; rfl
    | succ s => cases hscope

end Rooted

/-! ### Single scopes -/

/-- There is a scope `s`, and it has a registry. -/
structure Live (f : Forest α) (s : ScopeId) : Prop where
  /-- The scope is one of the forest. -/
  lt_size : s < f.scopes.size
  /-- The registry that the scope uses is one of the forest. -/
  registry_lt : ∀ scope, f.scopes[s]? = some scope → scope.registry < f.registries.size

namespace Live

variable {f f' : Forest α} {s : ScopeId}

/-- Every scope of a tree is `Live`: it has the registry of the tree. -/
theorem of_rooted (h : f.Rooted) (hs : s < f.scopes.size) : f.Live s where
  lt_size := hs
  registry_lt scope hscope := by
    rw [h.registry s scope hscope]
    exact h.registries_pos

theorem registry_setRegistry (h : f.Live s) (R : Registry) :
    (f.setRegistry s R).registry s = R := by
  have hscope := Array.getElem?_eq_getElem h.lt_size
  have hlt := h.registry_lt _ hscope
  rw [registry, scopes_setRegistry, hscope, setRegistry, hscope]
  simp only
  rw [Array.getElem?_modify, if_pos rfl, Array.getElem?_eq_getElem hlt]
  rfl

/-- `Forest.declare` in a scope declares in the registry of the scope and leaves the scopes as they
are. -/
theorem of_declare (h : f.Live s) {name : String} {constructors : List (String × List Ty)}
    (hdeclare : outcome (declare s name constructors) f = (.ok (), f')) :
    f'.scopes = f.scopes ∧
      outcome (Registry.declare name constructors) (f.registry s) = (.ok (), f'.registry s) := by
  obtain ⟨R, hR, rfl⟩ := outcome_declare_eq.mp hdeclare
  exact ⟨scopes_setRegistry f s R, by rw [hR, h.registry_setRegistry]⟩

end Live

/-! ### Growing -/

/-- The forest `f'` comes after `f`: names keep their meaning in the scopes of `f`, quoted names
that mean nothing there still mean nothing, and no constructor is forgotten. -/
structure Grows (f f' : Forest α) : Prop where
  /-- No scope is lost. -/
  size : f.scopes.size ≤ f'.scopes.size
  /-- Names keep their meaning. -/
  get?_eq_some : ∀ s < f.scopes.size, ∀ name a, f.get? s name = some a → f'.get? s name = some a
  /-- Quoted names stay unbound. -/
  get?_eq_none : ∀ s < f.scopes.size, ∀ name, Text.isQuoted name = true → f.get? s name = none →
    f'.get? s name = none
  /-- Constructors stay declared. -/
  registry : f.registry 0 ≤ f'.registry 0

namespace Grows

theorem refl (f : Forest α) : f.Grows f where
  size := Nat.le_refl _
  get?_eq_some _ _ _ _ h := h
  get?_eq_none _ _ _ _ h := h
  registry := Registry.le_refl _

theorem trans {f g k : Forest α} (h : f.Grows g) (h' : g.Grows k) : f.Grows k where
  size := Nat.le_trans h.size h'.size
  get?_eq_some s hs name a ha :=
    h'.get?_eq_some s (Nat.lt_of_lt_of_le hs h.size) name a (h.get?_eq_some s hs name a ha)
  get?_eq_none s hs name hname ha :=
    h'.get?_eq_none s (Nat.lt_of_lt_of_le hs h.size) name hname (h.get?_eq_none s hs name hname ha)
  registry := Registry.le_trans h.registry h'.registry

end Grows

/-- `f ≤ f'` says that the forest `f'` comes after `f`. -/
instance : Preorder (Forest α) where
  le := Grows
  le_refl := .refl
  le_trans _ _ _ := .trans

/-- The forest `f'` comes after `f` and has the same root: it binds the same names to the same
things and knows the same data types. -/
structure SameRoot (f f' : Forest α) : Prop where
  /-- The one forest comes after the other. -/
  le : f ≤ f'
  /-- The root has the same bindings. -/
  bindings : f'.bindings 0 = f.bindings 0
  /-- The root knows the same data types. -/
  registry : f'.registry 0 = f.registry 0

namespace SameRoot

theorem refl (f : Forest α) : f.SameRoot f where
  le := le_refl f
  bindings := rfl
  registry := rfl

theorem trans {f g k : Forest α} (h : f.SameRoot g) (h' : g.SameRoot k) : f.SameRoot k where
  le := le_trans h.le h'.le
  bindings := h'.bindings.trans h.bindings
  registry := h'.registry.trans h.registry

end SameRoot

namespace Rooted

variable {f : Forest α}

/-- A forest `Grows` by a new scope. -/
theorem grows_extend (h : f.Rooted) (s : ScopeId) (bound : Table α) :
    f.Grows (f.extend s bound).2 where
  size := by
    rw [Forest.extend, Array.size_push]
    omega
  get?_eq_some t ht name a ha := by rwa [h.get?_extend s ht]
  get?_eq_none t ht name _ ha := by rwa [h.get?_extend s ht]
  registry := by
    rw [registry_extend_of_ne f s 0 bound (Nat.ne_of_lt h.size_pos)]
    exact Registry.le_refl _

/-- `extend` leaves the root alone. -/
theorem sameRoot_extend (h : f.Rooted) (s : ScopeId) (bound : Table α) :
    f.SameRoot (f.extend s bound).2 where
  le := h.grows_extend s bound
  bindings := bindings_extend_of_ne f s 0 bound (Nat.ne_of_lt h.size_pos)
  registry := registry_extend_of_ne f s 0 bound (Nat.ne_of_lt h.size_pos)

/-- A forest `Grows` by a new name of the root that is not quoted. -/
theorem grows_write (h : f.Rooted) {name : String} (hname : (f.bindings 0).get? name = none)
    (hquoted : Text.isQuoted name = false) (a : α) : f.Grows (f.write 0 name a) where
  size := Nat.le_of_eq (size_write f 0 name a).symm
  get?_eq_some s hs other b hb := by rw [h.get?_write hname a hs, hb, Option.some_or]
  get?_eq_none s hs other hother hb := by
    have hne : other ≠ name := by
      rintro rfl
      rw [hquoted] at hother
      cases hother
    rw [h.get?_write hname a hs, hb, if_neg hne, Option.none_or]
  registry := by
    rw [registry_write]
    exact Registry.le_refl _

/-- A forest `Grows` by further data types. -/
theorem grows_withRegistry (h : f.Rooted) {R : Registry} (hR : f.registry 0 ≤ R) :
    f.Grows (f.withRegistry R) where
  size := Nat.le_refl _
  get?_eq_some _ _ _ _ h := h
  get?_eq_none _ _ _ _ h := h
  registry := by rwa [h.registry_withRegistry]

end Rooted

/-! ### Alike forests -/

/-- Both forests have the same shape and the same data types, and their scopes bind the same names
in the same order, each to related things. -/
structure Alike (rel : α → β → Prop) (f : Forest α) (g : Forest β) : Prop where
  /-- Scopes with the same number stand in the same place and have related bindings. -/
  scopes : ∀ s : ScopeId, Option.Rel (fun a b => a.ancestors = b.ancestors ∧
    a.registry = b.registry ∧ a.bindings.Alike rel b.bindings) f.scopes[s]? g.scopes[s]?
  /-- The data types are the same. -/
  registries : f.registries = g.registries

namespace Alike

variable {rel rel' : α → β → Prop} {f : Forest α} {g : Forest β}

theorem imp (h : f.Alike rel g) (hrel : ∀ a b, rel a b → rel' a b) : f.Alike rel' g where
  scopes s := by
    have hs := h.scopes s
    generalize f.scopes[s]? = a at hs ⊢
    generalize g.scopes[s]? = b at hs ⊢
    cases hs with
    | none => exact .none
    | some hab => exact .some ⟨hab.1, hab.2.1, hab.2.2.imp hrel⟩
  registries := h.registries

/-- Scopes of `Alike` forests stand in the same place. -/
theorem path_eq (h : f.Alike rel g) (s : ScopeId) : f.path s = g.path s := by
  have hs := h.scopes s
  rw [path, path]
  generalize f.scopes[s]? = a at hs ⊢
  generalize g.scopes[s]? = b at hs ⊢
  cases hs with
  | none => rfl
  | some hab => exact congrArg (s :: ·) hab.1

/-- Scopes of `Alike` forests have alike bindings. -/
theorem bindings (h : f.Alike rel g) (s : ScopeId) : (f.bindings s).Alike rel (g.bindings s) := by
  have hs := h.scopes s
  rw [Forest.bindings, Forest.bindings]
  generalize f.scopes[s]? = a at hs ⊢
  generalize g.scopes[s]? = b at hs ⊢
  cases hs with
  | none => exact .empty
  | some hab => exact hab.2.2

/-- Scopes of alike forests know the same data types. -/
theorem registry_eq (h : f.Alike rel g) (s : ScopeId) : f.registry s = g.registry s := by
  have hs := h.scopes s
  rw [Forest.registry, Forest.registry, h.registries]
  generalize f.scopes[s]? = a at hs ⊢
  generalize g.scopes[s]? = b at hs ⊢
  cases hs with
  | none => rfl
  | some hab => simp only [hab.2.1]

theorem size_eq (h : f.Alike rel g) : f.scopes.size = g.scopes.size := by
  refine Nat.le_antisymm (Nat.le_of_not_lt fun hlt => ?_) (Nat.le_of_not_lt fun hlt => ?_)
  · have hs := h.scopes g.scopes.size
    rw [Array.getElem?_eq_getElem hlt, Array.getElem?_eq_none (Nat.le_refl _)] at hs
    cases hs
  · have hs := h.scopes f.scopes.size
    rw [Array.getElem?_eq_getElem hlt, Array.getElem?_eq_none (Nat.le_refl _)] at hs
    cases hs

/-- Names mean related things in alike forests. -/
theorem get?_rel (h : f.Alike rel g) (s : ScopeId) (name : String) :
    Option.Rel rel (f.get? s name) (g.get? s name) := by
  rw [get?, get?, h.path_eq]
  induction g.path s with
  | nil => exact .none
  | cons t path ih =>
    rw [List.findSome?_cons, List.findSome?_cons]
    have ht := (h.bindings t).get?_rel name
    generalize (f.bindings t).get? name = a at ht ⊢
    generalize (g.bindings t).get? name = b at ht ⊢
    cases ht with
    | none => exact ih
    | some hab => exact .some hab

/-- A forest that is `Alike` to a tree is a tree. -/
theorem rooted (h : f.Alike rel g) (hf : f.Rooted) : g.Rooted where
  size_pos := h.size_eq ▸ hf.size_pos
  registries_pos := h.registries ▸ hf.registries_pos
  path s hs := h.path_eq s ▸ hf.path s (h.size_eq ▸ hs)
  mem_path s t ht := h.size_eq ▸ hf.mem_path s t (h.path_eq s ▸ ht)
  registry s scope hscope := by
    have hs := h.scopes s
    rw [hscope] at hs
    cases hf' : f.scopes[s]? with
    | none => rw [hf'] at hs; cases hs
    | some scope' =>
      rw [hf'] at hs
      cases hs with
      | some hab => rw [← hab.2.1, hf.registry s scope' hf']

/-- Single roots with alike bindings are alike. -/
theorem newRoot {t : Table α} {u : Table β} (htu : t.Alike rel u) :
    (Forest.newRoot ({} : Forest α) t).2.Alike rel (Forest.newRoot ({} : Forest β) u).2 where
  scopes s := by
    cases s with
    | zero => exact .some ⟨rfl, rfl, htu⟩
    | succ s => exact .none
  registries := rfl

/-- New scopes with alike bindings keep forests `Alike`. -/
theorem extend (h : f.Alike rel g) (s : ScopeId) {t : Table α} {u : Table β} (htu : t.Alike rel u) :
    (f.extend s t).2.Alike rel (g.extend s u).2 where
  scopes r := by
    rw [Forest.extend, Forest.extend, Array.getElem?_push, Array.getElem?_push, h.size_eq]
    split
    · refine .some ⟨h.path_eq s, ?_, htu⟩
      have hs := h.scopes s
      generalize f.scopes[s]? = a at hs ⊢
      generalize g.scopes[s]? = b at hs ⊢
      cases hs with
      | none => rfl
      | some hab => exact hab.2.1
    · exact h.scopes r
  registries := h.registries

/-- Binding a new name in the same scope to related things keeps forests `Alike`. -/
theorem write (h : f.Alike rel g) {s : ScopeId} {name : String}
    (hname : (f.bindings s).get? name = none) {a : α} {b : β} (hab : rel a b) :
    (f.write s name a).Alike rel (g.write s name b) where
  scopes r := by
    rw [Forest.write, Forest.write, Array.getElem?_modify, Array.getElem?_modify]
    by_cases hsr : s = r
    · have hs := h.scopes s
      rw [Forest.bindings] at hname
      rw [if_pos hsr, if_pos hsr, ← hsr]
      generalize f.scopes[s]? = x at hs hname ⊢
      generalize g.scopes[s]? = y at hs ⊢
      cases hs with
      | none => exact .none
      | some hxy => exact .some ⟨hxy.1, hxy.2.1, hxy.2.2.insert hname hab⟩
    · rw [if_neg hsr, if_neg hsr]
      exact h.scopes r
  registries := h.registries

/-- Giving a name of a scope another value that is related to what it is bound to in the first
forest keeps forests `Alike`. -/
theorem overwrite (h : f.Alike rel g) {s : ScopeId} {name : String} {a : α}
    (hname : (f.bindings s).get? name = some a) {b : β} (hab : rel a b) :
    f.Alike rel (g.write s name b) where
  scopes r := by
    rw [Forest.write, Array.getElem?_modify]
    by_cases hsr : s = r
    · have hs := h.scopes s
      rw [Forest.bindings] at hname
      rw [if_pos hsr, ← hsr]
      generalize f.scopes[s]? = x at hs hname ⊢
      generalize g.scopes[s]? = y at hs ⊢
      cases hs with
      | none => exact .none
      | some hxy => exact .some ⟨hxy.1, hxy.2.1, hxy.2.2.overwrite hname hab⟩
    · rw [if_neg hsr]
      exact h.scopes r
  registries := h.registries

/-- Further data types in both forests keep them `Alike`. -/
theorem withRegistry (h : f.Alike rel g) (R : Registry) :
    (f.withRegistry R).Alike rel (g.withRegistry R) where
  scopes := h.scopes
  registries := by rw [Forest.withRegistry, Forest.withRegistry, h.registries]

end Alike

end Casewise.Forest
