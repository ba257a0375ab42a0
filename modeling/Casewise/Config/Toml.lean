import Casewise.Table

/-!
# Flag files

The part of TOML that settings need: tables of named flags. A line is blank, opens a table with
`[name]`, or gives a flag a value with `name = true` or `name = false`; blanks around the parts do
not count, and a number sign starts a comment. Flags before the first table belong to the document
itself. No table is opened twice and no flag is given twice.
-/

namespace Casewise.Toml

/-- What stands on a line. -/
inductive Line where
  /-- Nothing, or a comment. -/
  | blank
  /-- The beginning of the table `name`. -/
  | table (name : String)
  /-- The flag `name` with its value. -/
  | flag (name : String) (value : Bool)
  deriving DecidableEq, Repr

/-- Whether `c` may stand between the parts of a line. -/
def isSpace (c : Char) : Bool :=
  c = ' ' || c = '\t'

/-- Whether `c` may stand in a name. -/
def isNameChar (c : Char) : Bool :=
  c.isAlphanum || c = '-' || c = '_'

/-- Whether `c` may stand in a comment. -/
def isCommentChar (c : Char) : Bool :=
  c = '\t' || (' ' ≤ c && c ≠ '\x7f')

/-- `cs` without the spaces in front. -/
def skipSpaces (cs : List Char) : List Char :=
  cs.dropWhile isSpace

/-- Whether nothing follows on a line but spaces and a comment. -/
def endsLine (cs : List Char) : Bool :=
  match skipSpaces cs with
  | [] => true
  | c :: comment => c = '#' && comment.all isCommentChar

/-- The name in front of `cs` and what follows it. -/
def name? (cs : List Char) : Option (String × List Char) :=
  match cs.takeWhile isNameChar with
  | [] => none
  | name => some (String.ofList name, skipSpaces (cs.dropWhile isNameChar))

/-- The truth value in front of `cs` and what follows it. -/
def value? : List Char → Option (Bool × List Char)
  | 't' :: 'r' :: 'u' :: 'e' :: rest => some (true, rest)
  | 'f' :: 'a' :: 'l' :: 's' :: 'e' :: rest => some (false, rest)
  | _ => none

/-- What stands on the line `cs`, if it is well formed. -/
def line? (cs : List Char) : Option Line :=
  if endsLine cs then some .blank
  else
    match skipSpaces cs with
    | '[' :: rest => do
      let (name, rest) ← name? (skipSpaces rest)
      match rest with
      | ']' :: rest => if endsLine rest then some (.table name) else none
      | _ => none
    | cs => do
      let (name, rest) ← name? cs
      match rest with
      | '=' :: rest => do
        let (value, rest) ← value? (skipSpaces rest)
        if endsLine rest then some (.flag name value) else none
      | _ => none

/-- The lines of a document, where `line`, the last character in front, has been read already. A
line ends with a line feed, or with a carriage return and a line feed. -/
def linesFrom (line : List Char) : List Char → List (List Char)
  | [] => [line.reverse]
  | '\n' :: rest => line.reverse :: linesFrom [] rest
  | '\r' :: '\n' :: rest => line.reverse :: linesFrom [] rest
  | c :: rest => linesFrom (c :: line) rest

/-- The flags of a document. -/
structure Document where
  /-- The flags before the first table. -/
  flags : Table Bool := ∅
  /-- The tables with their flags. -/
  tables : Table (Table Bool) := ∅
  deriving Inhabited

/-- The document after one more line, where `current` is the open table, and the table that is open
then. -/
def Document.add (d : Document) (current : Option String) :
    Line → Option (Document × Option String)
  | .blank => some (d, current)
  | .table name =>
    if d.flags.contains name || d.tables.contains name then none
    else some ({ d with tables := d.tables.insert name ∅ }, some name)
  | .flag name value =>
    match current with
    | none =>
      if d.flags.contains name then none
      else some ({ d with flags := d.flags.insert name value }, none)
    | some table =>
      let flags := (d.tables.get? table).getD ∅
      if flags.contains name then none
      else some ({ d with tables := d.tables.insert table (flags.insert name value) }, current)

/-- The flags of the text `source`, if it is well formed. -/
def parse? (source : String) : Option Document := do
  let lines ← (linesFrom [] source.toList).mapM line?
  let (d, _) ← lines.foldlM (fun (d, current) line => d.add current line) (({} : Document), none)
  return d

end Casewise.Toml
