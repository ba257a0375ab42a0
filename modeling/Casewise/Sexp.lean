import Casewise.Span
import Casewise.Text.Spaced

/-!
# S-expressions

The nested form of a text: an atom is a run of characters, a list holds further forms. Every form
knows the span it was read from.

`Sexp.text` writes a form with single spaces, without line breaks and comments.
-/

namespace Casewise

/-- A nested form of a text. -/
inductive Sexp where
  /-- A run of characters without structure; a string keeps its quotes. -/
  | atom (text : String) (span : Span)
  /-- A parenthesized sequence of forms. -/
  | list (items : List Sexp) (span : Span)
  deriving Repr, Inhabited

namespace Sexp

/-- The span the form was read from. -/
def span : Sexp → Span
  | atom _ span => span
  | list _ span => span

mutual

/-- The form written out, with one space between neighbours in a list. -/
def text : Sexp → String
  | atom text _ => text
  | list items _ => Text.parenthesized (texts items)

/-- The forms written out one by one. -/
def texts : List Sexp → List String
  | [] => []
  | item :: items => text item :: texts items

end

theorem texts_eq_map (items : List Sexp) : texts items = items.map text := by
  induction items with
  | nil => rfl
  | cons item items ih => simp [texts, ih]

end Sexp

end Casewise
