import Casewise.Proofs.Pattern.Likeness
import Casewise.Value.Subject

/-!
# Moving the functions in values to other places

A value knows spans only through the body of a function that it holds. Scopes hold values, so their
spans can be replaced as well; which names are bound in which scopes, and which data types are
declared, stays as it is.

## Main definitions

* `Value.mapSpans`: the value with other spans in the bodies of its functions.
* `Table.map`, `Forest.map`: tables and scopes with other values.

## Main statements

* `Value.display_mapSpans`: a value that is moved is printed as before.
* `Forest.get?_map`, `Forest.set_alongside` and their siblings: scopes answer and change as before.
-/

namespace Casewise

/-! ### Values -/

namespace Value

mutual

/-- The value with the spans in the bodies of its functions replaced. -/
def mapSpans (f : Span → Span) : Value → Value
  | closure param body scope => closure param (body.mapSpans f f) scope
  | pair first second => pair (mapSpans f first) (mapSpans f second)
  | constructed name fields => constructed name (mapSpansAll f fields)
  | number value => number value
  | boolean value => boolean value
  | string value => string value
  | builtin function => builtin function
  | constructor name arity => constructor name arity

/-- The values with the spans in the bodies of their functions replaced. -/
def mapSpansAll (f : Span → Span) : List Value → List Value
  | [] => []
  | v :: vs => mapSpans f v :: mapSpansAll f vs

end

variable {f : Span → Span}

theorem mapSpansAll_eq_map (vs : List Value) : mapSpansAll f vs = vs.map (mapSpans f) := by
  induction vs with
  | nil => rfl
  | cons v vs ih => rw [mapSpansAll, ih, List.map_cons]

@[simp]
theorem kind_mapSpans (v : Value) : (v.mapSpans f).kind = v.kind := by
  cases v <;> rfl

mutual

/-- `display` does not show spans. -/
@[simp]
theorem display_mapSpans : ∀ v : Value, (v.mapSpans f).display = v.display
  | closure .. | number _ | boolean _ | string _ | builtin _ | constructor .. => rfl
  | pair first second => by
    rw [mapSpans, display, display, display_mapSpans first, display_mapSpans second]
  | constructed name fields => by rw [mapSpans, display, display, displays_mapSpansAll fields]

theorem displays_mapSpansAll : ∀ vs : List Value, displays (mapSpansAll f vs) = displays vs
  | [] => rfl
  | v :: vs => by rw [mapSpansAll, displays, displays, display_mapSpans v, displays_mapSpansAll vs]

end

mutual

theorem mapSpans_mapSpans (f g : Span → Span) :
    ∀ v : Value, (v.mapSpans f).mapSpans g = v.mapSpans (g ∘ f)
  | number _ | boolean _ | string _ | builtin _ | constructor .. => rfl
  | closure param body scope => by rw [mapSpans, mapSpans, mapSpans, Expr.mapSpans_mapSpans]
  | pair first second => by
    rw [mapSpans, mapSpans, mapSpans, mapSpans_mapSpans f g first, mapSpans_mapSpans f g second]
  | constructed name fields => by
    rw [mapSpans, mapSpans, mapSpans, mapSpansAll_mapSpansAll f g fields]

theorem mapSpansAll_mapSpansAll (f g : Span → Span) :
    ∀ vs : List Value, mapSpansAll g (mapSpansAll f vs) = mapSpansAll (g ∘ f) vs
  | [] => rfl
  | v :: vs => by
    rw [mapSpansAll, mapSpansAll, mapSpansAll, mapSpans_mapSpans f g v,
      mapSpansAll_mapSpansAll f g vs]

end

end Value

/-- The value `w` is `v` with the spans in the bodies of its functions replaced. -/
def Value.Moved (f : Span → Span) (v w : Value) : Prop :=
  w = v.mapSpans f

/-- A value and the value that it becomes elsewhere are alike for patterns: `Value.Moved` is a
`Likeness`. -/
theorem Subject.likeness_moved (f : Span → Span) : Subject.Likeness (Value.Moved f) where
  fitsNumber_eq := by
    rintro v _ rfl n
    cases v <;> rfl
  fitsBoolean_eq := by
    rintro v _ rfl b
    cases v <;> rfl
  fitsString_eq := by
    rintro v _ rfl s
    cases v <;> rfl
  components?_rel := by
    rintro v _ rfl
    cases v with
    | pair first second => exact .some ⟨rfl, rfl⟩
    | _ => exact .none
  fields?_rel := by
    rintro v _ rfl info
    cases v with
    | constructed name fields =>
      change Option.Rel _ (if name = info.name then some fields else none)
        (if name = info.name then some (Value.mapSpansAll f fields) else none)
      rw [Value.mapSpansAll_eq_map]
      split
      · exact .some (forall₂_eq_map_iff.mpr rfl)
      · exact .none
    | _ => exact .none

/-! ### Tables -/

namespace Table

variable {α β : Type} (g : α → β)

/-- The table with the values replaced. -/
def map (t : Table α) : Table β where
  entries := t.entries.map fun entry => (entry.1, g entry.2)
  nodup := by
    rw [List.map_map]
    exact t.nodup

@[simp]
theorem get?_map (t : Table α) (name : String) : (t.map g).get? name = (t.get? name).map g := by
  change (t.entries.map fun entry => (entry.1, g entry.2)).lookup name =
    (t.entries.lookup name).map g
  induction t.entries with
  | nil => rfl
  | cons entry rest ih =>
    rw [List.map_cons, List.lookup_cons, List.lookup_cons]
    cases name == entry.1 with
    | true => rfl
    | false => exact ih

@[simp]
theorem contains_map (t : Table α) (name : String) : (t.map g).contains name = t.contains name := by
  rw [contains, contains, get?_map, Option.isSome_map]

/-- `insert` after `map` is `map` after `insert`. -/
theorem insert_map (t : Table α) (name : String) (a : α) :
    (t.map g).insert name (g a) = (t.insert name a).map g := by
  refine Table.ext ?_
  change insertEntry name (g a) (t.entries.map fun entry => (entry.1, g entry.2)) =
    (insertEntry name a t.entries).map fun entry => (entry.1, g entry.2)
  induction t.entries with
  | nil => rfl
  | cons entry rest ih =>
    rw [List.map_cons, insertEntry, insertEntry]
    split
    · rfl
    · rw [List.map_cons, ih]

theorem map_ofList (entries : List (String × α)) :
    (ofList entries).map g = ofList (entries.map fun entry => (entry.1, g entry.2)) := by
  have hfold (t : Table α) : (entries.foldl (fun t entry => t.insert entry.1 entry.2) t).map g =
      (entries.map fun entry => (entry.1, g entry.2)).foldl
        (fun t entry => t.insert entry.1 entry.2) (t.map g) := by
    induction entries generalizing t with
    | nil => rfl
    | cons entry rest ih =>
      rw [List.foldl_cons, List.map_cons, List.foldl_cons, ih]
      change _ = List.foldl _ ((t.map g).insert entry.1 (g entry.2)) _
      rw [insert_map]
  exact hfold ∅

theorem eq_map_of_alike {t : Table α} {u : Table β} (h : Alike (fun a b => b = g a) t u) :
    u = t.map g := by
  refine Table.ext ?_
  change u.entries = t.entries.map fun entry => (entry.1, g entry.2)
  rw [Alike] at h
  generalize t.entries = as, u.entries = bs at h ⊢
  induction h with
  | nil => rfl
  | @cons a b _ _ hab _ ih =>
    have hb : b = (a.1, g a.2) := Prod.ext hab.1.symm hab.2
    rw [List.map_cons, ih, hb]

theorem map_map {γ : Type} (h : β → γ) (t : Table α) : (t.map g).map h = t.map (h ∘ g) := by
  refine Table.ext ?_
  change (t.entries.map _).map _ = t.entries.map _
  rw [List.map_map]
  rfl

end Table

/-! ### Scopes -/

namespace Forest

variable {α β : Type} (g : α → β) (f : Forest α) (s : ScopeId)

/-- The scopes with the values replaced. -/
def map : Forest β where
  scopes := f.scopes.map fun scope => { scope with bindings := scope.bindings.map g }
  registries := f.registries

theorem getElem?_map : (f.map g).scopes[s]? =
    f.scopes[s]?.map fun scope => { scope with bindings := scope.bindings.map g } :=
  Array.getElem?_map

@[simp]
theorem bindings_map : (f.map g).bindings s = (f.bindings s).map g := by
  rw [bindings, bindings, getElem?_map]
  cases f.scopes[s]? <;> rfl

@[simp]
theorem path_map : (f.map g).path s = f.path s := by
  rw [path, path, getElem?_map]
  cases f.scopes[s]? <;> rfl

@[simp]
theorem registry_map : (f.map g).registry s = f.registry s := by
  rw [registry, registry, getElem?_map]
  cases f.scopes[s]? <;> rfl

/-- `get?` in a forest whose values have been replaced with `Forest.map`. -/
@[simp]
theorem get?_map (name : String) : (f.map g).get? s name = (f.get? s name).map g := by
  simp only [get?, path_map, bindings_map, Table.get?_map]
  induction f.path s with
  | nil => rfl
  | cons t path ih =>
    rw [List.findSome?_cons, List.findSome?_cons, ih]
    cases (f.bindings t).get? name <;> rfl

@[simp]
theorem hasLocal_map (name : String) : (f.map g).hasLocal s name = f.hasLocal s name := by
  rw [hasLocal, hasLocal, bindings_map, Table.contains_map]

@[simp]
theorem owner?_map (name : String) : (f.map g).owner? s name = f.owner? s name := by
  simp only [owner?, path_map, bindings_map, Table.contains_map]

/-- `extend` after `map` is `map` after `extend`. -/
theorem extend_map (t : Table α) : (f.map g).extend s (t.map g) =
    ((f.extend s t).1, (f.extend s t).2.map g) := by
  have hnumber : (f.map g).scopes[s]?.map Scope.registry = f.scopes[s]?.map Scope.registry := by
    rw [getElem?_map, Option.map_map]
    rfl
  simp only [extend, hnumber, path_map]
  simp only [map, Array.size_map, Array.map_push]

theorem newRoot_map (t : Table α) : (f.map g).newRoot (t.map g) =
    ((f.newRoot t).1, (f.newRoot t).2.map g) := by
  simp only [newRoot, map, Array.size_map, Array.map_push]

/-- `write` after `map` is `map` after `write`. -/
theorem write_map (name : String) (a : α) :
    (f.map g).write s name (g a) = (f.write s name a).map g := by
  simp only [write, map, mk.injEq, and_true]
  refine Array.ext_getElem? fun t => ?_
  rw [Array.getElem?_modify, Array.getElem?_map, Array.getElem?_map, Array.getElem?_modify]
  split
  · cases f.scopes[t]? with
    | none => rfl
    | some scope => simp only [Option.map_some, Table.insert_map]
  · rfl

variable {move : Span → Span}

/-- `set` in a forest whose values have been replaced with `Forest.map`. -/
theorem set_alongside (name : String) (a : α) :
    Alongside (LangError.Moved move) (fun f f' => f' = f.map g) (f.set s name a)
      ((f.map g).set s name (g a)) := by
  rw [set, set, hasLocal_map, write_map]
  split
  · exact .error rfl
  · exact .ok rfl

/-- `update` in scopes whose values have been replaced. -/
theorem update_alongside (name : String) (a : α) :
    Alongside (LangError.Moved move) (fun f f' => f' = f.map g) (f.update s name a)
      ((f.map g).update s name (g a)) := by
  rw [update, update, owner?_map]
  cases f.owner? s name with
  | none => exact .error rfl
  | some owner => exact .ok (write_map g f owner name a)

theorem setRegistry_map (R : Registry) :
    (f.map g).setRegistry s R = (f.setRegistry s R).map g := by
  rw [setRegistry, setRegistry, getElem?_map]
  cases f.scopes[s]? <;> rfl

/-- `Forest.declare` in scopes whose values have been replaced. The error has no place yet. -/
theorem declare_mirrors (name : String) (constructors : List (String × List Ty)) :
    Mirrors (LangError.Moved move) (fun (f : Forest α) f' => f' = f.map g) (fun _ _ => True)
      (declare s name constructors) (declare s name constructors) := by
  have hregistry : Mirrors (LangError.Moved move) Eq (fun _ _ => True)
      (Registry.declare name constructors) (Registry.declare name constructors) := by
    intro R R' hR
    subst hR
    refine ⟨?_, rfl⟩
    rcases hout : outcome (Registry.declare name constructors) R with ⟨e | u, R'⟩
    · obtain ⟨⟨clash, rfl⟩, -⟩ := Registry.declare_eq_error hout
      exact .error rfl
    · exact .ok trivial
  refine hregistry.onPart (fun f f' hf => ?_) fun f f' R R' hf hR => ?_
  · rw [hf, registry_map]
  · rw [hf, hR, setRegistry_map]

theorem map_map {γ : Type} (h : β → γ) : (f.map g).map h = f.map (h ∘ g) := by
  simp only [map, Array.map_map, Function.comp_def, Table.map_map]

end Forest

end Casewise
