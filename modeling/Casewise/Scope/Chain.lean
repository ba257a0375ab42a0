import Casewise.Scope.Registry

/-!
# Chains of levels

What a place in a program sees: a stack of levels, each a table of names, and the data types
declared so far. A name means what the innermost level that binds it says. New names enter the
innermost level, which must not have bound them already; data types are shared by all levels.
-/

namespace Casewise

/-- The levels around a place, and the data types it knows. -/
structure Chain (α : Type) where
  /-- The innermost level. -/
  here : Table α := ∅
  /-- The levels around it, the nearest first. -/
  outer : List (Table α) := []
  /-- The declared data types. -/
  registry : Registry := ∅

namespace Chain

variable {α : Type}

instance : Inhabited (Chain α) :=
  ⟨{}⟩

/-- All levels, the innermost first. -/
def levels (c : Chain α) : List (Table α) :=
  c.here :: c.outer

/-- What `name` means: its value in the innermost level that binds it. -/
def get? (c : Chain α) (name : String) : Option α :=
  c.levels.findSome? (·.get? name)

/-- Whether some level binds `name`. -/
def has (c : Chain α) (name : String) : Bool :=
  (c.get? name).isSome

/-- Whether the innermost level binds `name`. -/
def hasLocal (c : Chain α) (name : String) : Bool :=
  c.here.contains name

/-- What `name` means; it must be bound. -/
def get (c : Chain α) (name : String) : Except LangError α :=
  match c.get? name with
  | some value => .ok value
  | none => throw { cause := .unboundName name }

/-- Binds a name that the innermost level does not bind yet. -/
def set (c : Chain α) (name : String) (value : α) : Except LangError (Chain α) :=
  if c.hasLocal name then throw { cause := .redefinition name }
  else .ok { c with here := c.here.insert name value }

/-- A new innermost level with the given bindings. -/
def extend (c : Chain α) (bindings : Table α) : Chain α :=
  { c with here := bindings, outer := c.levels }

/-- Declares a data type. -/
def declare (name : String) (constructors : List (String × List Ty)) :
    ExceptT LangError (StateM (Chain α)) Unit :=
  onPart Chain.registry (fun c registry => { c with registry }) (Registry.declare name constructors)

end Chain

end Casewise
