import Casewise.LangError
import Casewise.Table
import Casewise.Ty

/-!
# Declared data types

A registry answers two questions: which constructors a data type has, and what a constructor is. It
keeps a table for each, `Registry.types` and `Registry.index`. A data type is declared at most once,
and a constructor belongs to at most one data type; `Registry.declare` checks both before it writes
anything. That the tables fit together is no part of a registry: it is what declaring keeps true.
-/

namespace Casewise

/-- A constructor of a declared data type. -/
structure ConstructorInfo where
  /-- The name of the constructor. -/
  name : String
  /-- The data type it builds. -/
  data : String
  /-- The types of its fields. -/
  fields : List Ty
  deriving DecidableEq, Repr, Inhabited

/-- The number of fields. -/
def ConstructorInfo.arity (info : ConstructorInfo) : Nat :=
  info.fields.length

/-- The declared data types with their constructors, in two tables: by data type, and by
constructor. A declaration writes the one and then the other. -/
structure Registry where
  /-- The constructors of every data type. -/
  types : Table (List ConstructorInfo)
  /-- Every constructor, by its name. -/
  index : Table ConstructorInfo
  /-- A constructor is filed under its own name, as `fileConstructor` files it. -/
  name_eq : ∀ name info, index.get? name = some info → info.name = name

/-- Declaring with a registry at hand. What has been written before a failure stays. -/
abbrev Declaring := ExceptT LangError (StateM Registry)

namespace Registry

/-- The registry before the first declaration. -/
def empty : Registry where
  types := ∅
  index := ∅
  name_eq _ _ h := by cases h

instance : EmptyCollection Registry :=
  ⟨empty⟩

instance : Inhabited Registry :=
  ⟨empty⟩

/-- The constructors of the data type `name`, if it is declared. -/
def data? (r : Registry) (name : String) : Option (List ConstructorInfo) :=
  r.types.get? name

/-- The declared constructor called `name`. -/
def constructor? (r : Registry) (name : String) : Option ConstructorInfo :=
  r.index.get? name

/-- All declared constructors, in order of declaration. -/
def constructors (r : Registry) : List ConstructorInfo :=
  r.index.entries.map Prod.snd

/-- The registry with `infos` filed as the constructors of the data type `name`. -/
def fileType (r : Registry) (name : String) (infos : List ConstructorInfo) : Registry :=
  { r with types := r.types.insert name infos }

/-- The registry with `info` filed under its name. -/
def fileConstructor (r : Registry) (info : ConstructorInfo) : Registry where
  types := r.types
  index := r.index.insert info.name info
  name_eq name other h := by
    by_cases hname : name = info.name
    · rw [hname, Table.get?_insert_self] at h
      rw [hname, ← Option.some.inj h]
    · rw [Table.get?_insert_of_ne hname] at h
      exact r.name_eq name other h

/-- Adds the constructor `c` of the data type `name` to those listed so far. It must be neither
filed nor listed. -/
def enlist (name : String) (listed : List ConstructorInfo) (c : String × List Ty) :
    Declaring (List ConstructorInfo) := do
  if ((← getThe Registry).constructor? c.1).isSome || listed.any (·.name = c.1) then
    throw { cause := .redefinition c.1 }
  else
    return listed ++ [⟨c.1, name, c.2⟩]

/-- Declares the data type `name` with its constructors and their field types. The type and the
constructors must be new, and no constructor may be listed twice. -/
def declare (name : String) (constructors : List (String × List Ty)) : Declaring Unit := do
  if ((← getThe Registry).data? name).isSome then
    throw { cause := .redefinition name }
  else
    let infos ← constructors.foldlM (enlist name) []
    modify (·.fileType name infos)
    infos.forM fun info => modify (·.fileConstructor info)

end Registry

/-- The computation `x` on the part of a state that `get` finds and `set` puts back. What `x` has
made of the part is put back also if `x` fails. -/
def onPart {σ τ ε α : Type} (get : σ → τ) (set : σ → τ → σ) (x : ExceptT ε (StateM τ) α) :
    ExceptT ε (StateM σ) α :=
  ExceptT.mk (modifyGet fun s =>
    let (result, part) := x.run.run (get s)
    (result, set s part))

end Casewise
