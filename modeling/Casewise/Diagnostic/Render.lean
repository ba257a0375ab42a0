import Casewise.Diagnostic
import Casewise.Text.Color
import Casewise.Text.Lines

/-!
# Showing diagnostics

A diagnostic is shown as a headline with its code, then for each place the location and, if the text
there is at hand, the line on which the place starts with carets under its characters, and then the
remarks. A place of several lines is underlined to the end of its first line.
-/

namespace Casewise.Diagnostic

open Text (Paint)

/-- The line `number` of a text, counted from one. -/
def line? (lines : List String) (number : Int) : Option String :=
  if 0 < number then lines[(number - 1).toNat]? else none

/-- The number of carets under a place that starts on the line `text`. -/
def caretCount (span : Span) (text : String) : Nat :=
  let last : Int := if span.last.line = span.first.line then span.last.col else text.length
  (max 1 (last - span.first.col + 1)).toNat

/-- The line `text` on which a place starts, and the carets under it. -/
def excerpt (color : Bool) (span : Span) (text : String) : List String :=
  let bar := Paint.blue.apply color "|"
  ["  " ++ Paint.blue.apply color (Text.alignRight 4 (toString span.first.line)) ++ " " ++ bar ++
      " " ++ text,
    "       " ++ bar ++ " " ++ Text.repeated ' ' (span.first.col - 1).toNat ++
      Paint.red.apply color (Text.repeated '^' (caretCount span text))]

/-- The lines that show a place, where `lines` are the lines of its file as far as they are
known. -/
def label (color : Bool) (lines : List String) (span : Span) : List String :=
  ("  " ++ Paint.blue.apply color "-->" ++ " " ++ span.location) ::
    match line? lines span.first.line with
    | some text => excerpt color span text
    | none => []

/-- The diagnostic as it is shown, in color or not. `source` knows the texts of files. -/
def render (color : Bool) (source : String → Option String) (d : Diagnostic) : String :=
  let lines (file : String) : List String := ((source file).map Text.lines).getD []
  Text.joined "\n"
    ((Paint.red.apply color ("error[" ++ d.code ++ "]") ++
        Paint.bold.apply color (": " ++ d.message)) ::
      d.labels.flatMap (fun span => label color (lines span.file) span) ++
      d.notes.map fun note => "  " ++ Paint.blue.apply color "=" ++ " note: " ++ note)

end Casewise.Diagnostic
