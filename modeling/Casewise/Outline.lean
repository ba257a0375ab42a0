/-!
# Outlines

An outline is a line of text with further outlines below it, which are written on the following
lines, indented by two spaces more.

Outlines of structured data have three kinds of lines: a node with the lines of its fields, a field
with a plain value, and a field with nodes below it.
-/

namespace Casewise

/-- A line with outlines below it. -/
inductive Outline where
  /-- The line `text` with the outlines `below` it. -/
  | line (text : String) (below : List Outline)
  deriving Repr, Inhabited

namespace Outline

/-- A node of the kind `kind`. -/
def node (kind : String) (fields : List Outline) : Outline :=
  line kind fields

/-- A field with a plain value. -/
def value (field text : String) : Outline :=
  line (field ++ ": " ++ text) []

/-- A field with nodes below it, or with empty parentheses if there are none. -/
def group (field : String) : (members : List Outline) → Outline
  | [] => value field "()"
  | member :: members => line (field ++ ":") (member :: members)

/-- The spaces in front of a line at the level `level`. -/
def indentation (level : Nat) : String :=
  String.ofList (List.replicate (2 * level) ' ')

mutual

/-- The lines of an outline whose own line is at the level `level`. -/
def lines (level : Nat) : Outline → List String
  | line text below => (indentation level ++ text) :: linesOf (level + 1) below

/-- The lines of outlines at the level `level`, one after the other. -/
def linesOf (level : Nat) : List Outline → List String
  | [] => []
  | o :: os => lines level o ++ linesOf level os

end

end Outline

end Casewise
