import Casewise.Pattern.Fit

/-!
# Patterns against types

Matching the type of a scrutinee tells whether a pattern can fit any of its values, and which types
the bound names have. A literal fits if its own type is the type of the scrutinee, and a constructor
if the scrutinee belongs to its data type; which constructor built it, the type does not say.
-/

namespace Casewise

instance : Subject Ty where
  fitsNumber ty _ := ty.agrees .nat
  fitsBoolean ty _ := ty.agrees .bool
  fitsString ty _ := ty.agrees .str
  components?
    | .pair first second => some (first, second)
    | _ => none
  fields? ty info := if ty.owner? = some info.data then some info.fields else none

end Casewise
