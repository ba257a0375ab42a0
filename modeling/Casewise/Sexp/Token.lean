import Casewise.Malformed
import Casewise.Text.Blank

/-!
# Tokens

A text falls into parentheses and atoms. An atom is a longest run of characters that are neither
blank nor a parenthesis nor a semicolon; one that starts with a double quote is a string instead,
which reaches to the next double quote and may hold any character. Inside a string a backslash
takes the character after it along. A semicolon outside a string starts a comment, which reaches to
the end of the line.

`scan` reads a text from left to right, one character at a time; `Scan` is what it knows in
between.

## Main definitions

* `Token`, `TokenStream`: tokens with their spans, and where the text ends.
* `Scan.step`: the effect of one character.
* `scan`: the tokens of a text, or the complaint about a string that is never closed.
-/

namespace Casewise

/-- What a token is, apart from its place. -/
inductive Lexeme where
  /-- An opening parenthesis. -/
  | opening
  /-- A closing parenthesis. -/
  | closing
  /-- An atom; a string keeps its quotes and backslashes. -/
  | atom (text : String)
  deriving DecidableEq, Repr, Inhabited

/-- The characters of a token. -/
def Lexeme.text : Lexeme → String
  | opening => "("
  | closing => ")"
  | atom text => text

/-- A token and the span it was read from. -/
structure Token where
  /-- What the token is. -/
  lexeme : Lexeme
  /-- Where it stands. -/
  span : Span
  deriving DecidableEq, Repr, Inhabited

/-- The tokens of a text. -/
structure TokenStream where
  /-- The tokens, in order. -/
  tokens : List Token
  /-- The place after the last character. -/
  stop : Span
  deriving DecidableEq, Repr, Inhabited

/-- What the character under the reader can belong to. -/
inductive Scan.Mode where
  /-- No token is open. -/
  | between
  | comment
  /-- An atom that starts at `first`; `taken` are its characters so far, the last one in front. -/
  | atom (first : Position) (taken : List Char)
  /-- A string that starts at `first`; `taken` are its characters so far, the last one in front.
  `escaped` tells whether a backslash takes the next character along. -/
  | string (first : Position) (taken : List Char) (escaped : Bool)
  deriving DecidableEq, Repr, Inhabited

/-- What is known about a text after its first characters. -/
structure Scan where
  /-- What the next character can belong to. -/
  mode : Scan.Mode := .between
  /-- The position of the next character. -/
  here : Position := .start
  /-- The finished tokens, the last one in front. -/
  found : List Token := []
  deriving DecidableEq, Repr, Inhabited

namespace Scan

/-- Whether `c` cannot stand inside an atom. -/
def endsAtom (c : Char) : Bool :=
  Text.isBlank c || c = '(' || c = ')' || c = ';'

/-- The token of the characters `taken`, the last one in front, from `first` up to `here`. -/
def atomToken (file : String) (first here : Position) (taken : List Char) : Token :=
  ⟨.atom (String.ofList taken.reverse), .upTo file first here⟩

/-- Reads `c` at `here` while no token is open. -/
def stepBetween (file : String) (here : Position) (found : List Token) (c : Char) : Scan :=
  let after := here.next c
  if Text.isBlank c then ⟨.between, after, found⟩
  else if c = ';' then ⟨.comment, after, found⟩
  else if c = '(' then ⟨.between, after, ⟨.opening, .upTo file here after⟩ :: found⟩
  else if c = ')' then ⟨.between, after, ⟨.closing, .upTo file here after⟩ :: found⟩
  else if c = '"' then ⟨.string here [c] false, after, found⟩
  else ⟨.atom here [c], after, found⟩

/-- Reads one character. -/
def step (file : String) (s : Scan) (c : Char) : Scan :=
  match s.mode with
  | .between => stepBetween file s.here s.found c
  | .comment => { s with mode := if c = '\n' then .between else .comment, here := s.here.next c }
  | .atom first taken =>
    if endsAtom c then stepBetween file s.here (atomToken file first s.here taken :: s.found) c
    else { s with mode := .atom first (c :: taken), here := s.here.next c }
  | .string first taken escaped =>
    let after := s.here.next c
    if escaped then ⟨.string first (c :: taken) false, after, s.found⟩
    else if c = '\\' then ⟨.string first (c :: taken) true, after, s.found⟩
    else if c = '"' then ⟨.between, after, atomToken file first after (c :: taken) :: s.found⟩
    else ⟨.string first (c :: taken) false, after, s.found⟩

/-- The tokens read, when the text ends here. An open string is a complaint about all of the text
from its quote on. -/
def finish (file : String) (s : Scan) : Except CompileError TokenStream :=
  match s.mode with
  | .between | .comment => .ok ⟨s.found.reverse, .upTo file s.here s.here⟩
  | .atom first taken =>
    .ok ⟨(atomToken file first s.here taken :: s.found).reverse, .upTo file s.here s.here⟩
  | .string first _ _ => .error (Malformed.unterminatedString.report (.upTo file first s.here))

end Scan

/-- The tokens of the text `source` of the file `file`. -/
def scan (file source : String) : Except CompileError TokenStream :=
  (source.toList.foldl (Scan.step file) {}).finish file

end Casewise
