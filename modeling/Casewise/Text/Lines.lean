/-!
# Lines of a text

A displayed text falls into lines at every character that moves to a new line: line feed, carriage
return, the two together, vertical tab, form feed, the file, group and record separators, next
line, and the line and paragraph separators. The break itself belongs to no line, and a break at
the very end opens no further line.

`unifyNewlines` brings the newline conventions of stored texts to the single line feed.
-/

namespace Casewise.Text

/-- Whether `c` ends a displayed line by itself. -/
def isLineBreak (c : Char) : Bool :=
  c ∈ ['\n', '\r', '\x0b', '\x0c', '\x1c', '\x1d', '\x1e', '\u0085', '\u2028', '\u2029']

/-- The lines of `text`, without their breaks. -/
def splitLines : (text : List Char) → List (List Char)
  | [] => []
  | '\r' :: '\n' :: rest => [] :: splitLines rest
  | c :: rest =>
    if isLineBreak c then
      [] :: splitLines rest
    else
      match splitLines rest with
      | [] => [[c]]
      | line :: lines => (c :: line) :: lines

/-- The lines of `text`, as texts. -/
def lines (text : String) : List String :=
  (splitLines text.toList).map String.ofList

/-- `text` with every carriage return, and the line feed after it if there is one, replaced by one
line feed. -/
def unifyNewlines : (text : List Char) → List Char
  | [] => []
  | '\r' :: '\n' :: rest => '\n' :: unifyNewlines rest
  | c :: rest => (if c = '\r' then '\n' else c) :: unifyNewlines rest

end Casewise.Text
