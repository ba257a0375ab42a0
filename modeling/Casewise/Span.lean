/-!
# Positions and spans

A position is a line and a column of a text, both counted from one; only a line feed starts a new
line here. A span reaches from a first to a last position of a named file, both inclusive.

Lines and columns are integers, because spans may also be written by hand and then point before the
beginning of a text; every span read from a text is positive.
-/

namespace Casewise

/-- A line and a column of a text, both counted from one. -/
structure Position where
  /-- The line. -/
  line : Int
  /-- The column, in characters. -/
  col : Int
  deriving DecidableEq, Repr, Inhabited

namespace Position

/-- The position of the first character of a text. -/
def start : Position :=
  ⟨1, 1⟩

/-- The position after a character `c` that stands at `p`. -/
def next (p : Position) (c : Char) : Position :=
  if c = '\n' then ⟨p.line + 1, 1⟩ else ⟨p.line, p.col + 1⟩

/-- The position after a text that starts at `p`. -/
def advance (p : Position) (text : List Char) : Position :=
  text.foldl next p

end Position

/-- A range of characters of a file, its ends included. -/
structure Span where
  /-- The name of the file. -/
  file : String
  /-- The position of the first character. -/
  first : Position
  /-- The position of the last character. -/
  last : Position
  deriving DecidableEq, Repr, Inhabited

namespace Span

/-- The span of what was read from `first` on, when reading has come to `here`. It ends on the line
of `here`, just before it, but never in a column before the one it starts in. -/
def upTo (file : String) (first here : Position) : Span :=
  ⟨file, first, ⟨here.line, max (here.col - 1) first.col⟩⟩

/-- The span from the beginning of `a` to the end of `b`. -/
def through (a b : Span) : Span :=
  { a with last := b.last }

/-- Where the span starts, as a reader looks it up: file, line and column. -/
def location (s : Span) : String :=
  s.file ++ ":" ++ toString s.first.line ++ ":" ++ toString s.first.col

end Span

end Casewise
