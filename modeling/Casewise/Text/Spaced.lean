/-!
# Joining texts

`joined` puts a separator between texts; `parenthesized` is the one bracketed form of the language:
parts with single spaces between them, inside parentheses.
-/

namespace Casewise.Text

/-- The texts one after the other with `separator` between neighbours. -/
def joined (separator : String) : List String → String
  | [] => ""
  | [last] => last
  | part :: next :: rest => part ++ separator ++ joined separator (next :: rest)

/-- The texts with one space between neighbours, inside parentheses. -/
def parenthesized (parts : List String) : String :=
  "(" ++ joined " " parts ++ ")"

/-- `count` copies of `c`. -/
def repeated (c : Char) (count : Nat) : String :=
  String.ofList (List.replicate count c)

/-- `text` after as many spaces as bring it to `width` characters; a longer text stays as it is. -/
def alignRight (width : Nat) (text : String) : String :=
  repeated ' ' (width - text.length) ++ text

end Casewise.Text
