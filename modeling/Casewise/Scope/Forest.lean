import Casewise.Scope.Chain

/-!
# Forests of scopes

Running programs share scopes: a function keeps the scope it was made in, and a later assignment
there is seen through every function that kept it. A forest holds all scopes made so far, by number.
A scope knows its own bindings and the scopes around it; a scope without any around it is a root and
starts a registry of data types of its own, which all scopes below it share.

`Forest.chain` is what a single scope sees, as a chain of levels; `Forest.get?_eq_chain` says that
names mean in a forest what they mean there.
-/

namespace Casewise

/-- The number of a scope in a forest. -/
abbrev ScopeId := Nat

/-- A scope of a forest. -/
structure Scope (α : Type) where
  /-- The scopes around this one, the nearest first. -/
  ancestors : List ScopeId
  /-- The names bound here. -/
  bindings : Table α
  /-- The number of the registry that knows the data types declared here. -/
  registry : Nat

/-- Scopes that may share the scopes around them. -/
structure Forest (α : Type) where
  /-- All scopes, by number. -/
  scopes : Array (Scope α) := #[]
  /-- The registries of the roots, by number. -/
  registries : Array Registry := #[]

namespace Forest

variable {α : Type}

instance : Inhabited (Forest α) :=
  ⟨{}⟩

/-! ### Reading -/

/-- The names bound in the scope `s` itself. -/
def bindings (f : Forest α) (s : ScopeId) : Table α :=
  match f.scopes[s]? with
  | some scope => scope.bindings
  | none => ∅

/-- The scope `s` and the scopes around it, the nearest first. -/
def path (f : Forest α) (s : ScopeId) : List ScopeId :=
  match f.scopes[s]? with
  | some scope => s :: scope.ancestors
  | none => []

/-- The nearest scope at or around `s` that binds `name`. -/
def owner? (f : Forest α) (s : ScopeId) (name : String) : Option ScopeId :=
  (f.path s).find? fun t => (f.bindings t).contains name

/-- What `name` means in the scope `s`. -/
def get? (f : Forest α) (s : ScopeId) (name : String) : Option α :=
  (f.path s).findSome? fun t => (f.bindings t).get? name

/-- Whether `name` is bound at or around the scope `s`. -/
def has (f : Forest α) (s : ScopeId) (name : String) : Bool :=
  (f.get? s name).isSome

/-- Whether `name` is bound in the scope `s` itself. -/
def hasLocal (f : Forest α) (s : ScopeId) (name : String) : Bool :=
  (f.bindings s).contains name

/-- What `name` means in the scope `s`; it must be bound. -/
def get (f : Forest α) (s : ScopeId) (name : String) : Except LangError α :=
  match f.get? s name with
  | some value => .ok value
  | none => throw { cause := .unboundName name }

/-- The data types known in the scope `s`. -/
def registry (f : Forest α) (s : ScopeId) : Registry :=
  match f.scopes[s]? with
  | some scope => f.registries[scope.registry]?.getD ∅
  | none => ∅

/-- What the scope `s` sees, as a chain of levels. -/
def chain (f : Forest α) (s : ScopeId) : Chain α where
  here := f.bindings s
  outer := (f.path s).tail.map f.bindings
  registry := f.registry s

/-! ### Growing -/

/-- A new root with the given bindings. -/
def newRoot (f : Forest α) (bindings : Table α) : ScopeId × Forest α :=
  (f.scopes.size,
    { scopes := f.scopes.push ⟨[], bindings, f.registries.size⟩
      registries := f.registries.push ∅ })

/-- A new scope inside the scope `s`, with the given bindings. -/
def extend (f : Forest α) (s : ScopeId) (bindings : Table α) : ScopeId × Forest α :=
  let number := (f.scopes[s]?.map Scope.registry).getD 0
  (f.scopes.size, { f with scopes := f.scopes.push ⟨f.path s, bindings, number⟩ })

/-! ### Writing -/

/-- The forest with `name` bound to `value` in the scope `s` itself. -/
def write (f : Forest α) (s : ScopeId) (name : String) (value : α) : Forest α :=
  { f with
    scopes := f.scopes.modify s fun scope =>
      { scope with bindings := scope.bindings.insert name value } }

/-- Binds a name that the scope `s` itself does not bind yet. -/
def set (f : Forest α) (s : ScopeId) (name : String) (value : α) : Except LangError (Forest α) :=
  if f.hasLocal s name then throw { cause := .redefinition name }
  else .ok (f.write s name value)

/-- Rebinds a name in the nearest scope at or around `s` that binds it. -/
def update (f : Forest α) (s : ScopeId) (name : String) (value : α) :
    Except LangError (Forest α) :=
  match f.owner? s name with
  | some owner => .ok (f.write owner name value)
  | none => throw { cause := .unboundName name }

/-- The forest with `registry` as the registry of the scope `s`. -/
def setRegistry (f : Forest α) (s : ScopeId) (registry : Registry) : Forest α :=
  match f.scopes[s]? with
  | some scope =>
    { f with registries := f.registries.modify scope.registry fun _ => registry }
  | none => f

/-- Declares a data type in the registry of the scope `s`. -/
def declare (s : ScopeId) (name : String) (constructors : List (String × List Ty)) :
    ExceptT LangError (StateM (Forest α)) Unit :=
  onPart (·.registry s) (·.setRegistry s) (Registry.declare name constructors)

/-! ### The view of a single scope -/

/-- A name means in a scope what it means in the `chain` that the scope sees. -/
theorem get?_eq_chain {f : Forest α} {s : ScopeId} (h : s < f.scopes.size) (name : String) :
    f.get? s name = (f.chain s).get? name := by
  have hp : f.path s = s :: (f.path s).tail := by simp [path, Array.getElem?_eq_getElem h]
  simp only [get?, chain, Chain.get?, Chain.levels]
  rw [hp, List.findSome?_cons, List.findSome?_cons, List.tail_cons, List.findSome?_map]
  rfl

end Forest

end Casewise
