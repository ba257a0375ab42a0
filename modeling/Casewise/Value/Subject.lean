import Casewise.Pattern.Fit
import Casewise.Value

/-!
# Patterns against values

A literal fits the value it writes, and a constructor what it has built.
-/

namespace Casewise

instance : Subject Value where
  fitsNumber
    | .number value, n => value = n
    | _, _ => false
  fitsBoolean
    | .boolean value, b => value = b
    | _, _ => false
  fitsString
    | .string value, s => value = s
    | _, _ => false
  components?
    | .pair first second => some (first, second)
    | _ => none
  fields?
    | .constructed name fields, info => if name = info.name then some fields else none
    | _, _ => none

end Casewise
