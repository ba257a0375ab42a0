import Casewise.LangError
import Casewise.Program
import Casewise.Table
import Casewise.Text.Decimal

/-!
# What a text has declared so far

How a form reads depends on the data declarations before it: an atom may be a type, a constructor
without fields or just a name, and a list may build data or apply a function. `Declared` is the
part of the declarations that reading needs, together with the length up to which it reads numbers.
-/

namespace Casewise

/-- How many digits a number may have if nothing else is said. -/
def usualDigits : Nat := 4300

/-- The data types and constructors that the forms read so far have declared. -/
structure Declared where
  /-- The declared data types, without repetition, the last one in front. -/
  dataTypes : List String := []
  /-- The number of fields of every declared constructor, by its latest declaration. -/
  constructors : Table Nat := ∅
  /-- How many digits a number may have, if that is limited. A longer one is not converted. -/
  maxDigits : Option Nat := some usualDigits

namespace Declared

instance : Inhabited Declared :=
  ⟨{}⟩

/-- Whether `name` is a constructor without fields. -/
def isNullary (d : Declared) (name : String) : Bool :=
  d.constructors.get? name = some 0

/-- The constructors without fields. -/
def nullary (d : Declared) : List String :=
  d.constructors.names.filter d.isNullary

/-- The limit that `text` exceeds as a number, if it writes one and has too many digits. -/
def exceeded? (d : Declared) (text : String) : Option Nat :=
  d.maxDigits.filter fun limit => (Text.decimal? text).isSome && limit < Text.digitCount text

/-- What the atom `text` means, unless it is a number with too many digits. -/
def converted {α : Type} (d : Declared) (text : String) (meaning : α) : Except Failure α :=
  match d.exceeded? text with
  | some limit => throw (.overlong limit (Text.digitCount text))
  | none => .ok meaning

/-- Remembers the data type `name`. -/
def addType (d : Declared) (name : String) : Declared :=
  if name ∈ d.dataTypes then d else { d with dataTypes := name :: d.dataTypes }

/-- Remembers constructors; one that is known already gets its new number of fields. -/
def addConstructors (d : Declared) (constructors : List ConstructorDecl) : Declared :=
  { d with
    constructors :=
      constructors.foldl (fun t c => t.insert c.name c.fields.length) d.constructors }

end Declared

end Casewise
