/-!
# Colors

Terminals take the color of a text from control sequences inside it. A control sequence is an escape
character, a bracket, any number of parameter characters, any number of intermediate characters, and
one final character, which completes it. `Paint.apply` puts a text between two control sequences;
`stripColor` removes every complete one again, for output that does not go to a terminal.
-/

namespace Casewise.Text

/-- The character that starts a control sequence. -/
def escape : Char :=
  '\x1b'

/-- The control sequence that sets how the following text looks. -/
def controlSequence (parameters : String) : String :=
  String.ofList [escape, '['] ++ parameters ++ "m"

/-- The looks of a text. -/
inductive Paint where
  | red
  | bold
  | blue
  deriving DecidableEq, Repr

/-- The parameters of the control sequence that turns the looks on. -/
def Paint.parameters : Paint → String
  | red => "1;31"
  | bold => "1"
  | blue => "1;34"

/-- `text` with the looks of `paint`, if `color` wants it colored. -/
def Paint.apply (paint : Paint) (color : Bool) (text : String) : String :=
  if color then controlSequence paint.parameters ++ text ++ controlSequence "0" else text

/-- Whether `c` can be a parameter of a control sequence: a digit, a colon, a semicolon, a
less-than, equals or greater-than sign, or a question mark. -/
def isParameter (c : Char) : Bool :=
  '0' ≤ c && c ≤ '?'

/-- Whether `c` can stand between the parameters and the end of a control sequence: a space or one
of the ASCII punctuation characters up to the slash. -/
def isIntermediate (c : Char) : Bool :=
  ' ' ≤ c && c ≤ '/'

/-- Whether `c` can end a control sequence: any ASCII character from the at sign to the tilde. -/
def isFinal (c : Char) : Bool :=
  '@' ≤ c && c ≤ '~'

/-- Whether `c` can follow `held`, the beginning of a control sequence with its last character in
front, without completing it. Parameters do not follow intermediate characters. -/
def continuesSequence : (held : List Char) → (c : Char) → Bool
  | [], c => c = escape
  | [_], c => c = '['
  | last :: _, c => isIntermediate c || isParameter c && !isIntermediate last

/-- Whether `c` completes the control sequence that begins with `held`, which has its last character
in front. -/
def completesSequence : (held : List Char) → (c : Char) → Bool
  | _ :: _ :: _, c => isFinal c
  | _, _ => false

/-- `text` without its control sequences, where `held`, the last character in front, are the
characters of a sequence that has begun before it. A beginning that leads to no control sequence
stays in the text. -/
def stripFrom (held : List Char) : (text : List Char) → List Char
  | [] => held.reverse
  | c :: rest =>
    if continuesSequence held c then stripFrom (c :: held) rest
    else if completesSequence held c then stripFrom [] rest
    else
      held.reverse ++
        if c = escape then stripFrom [c] rest else c :: stripFrom [] rest

/-- `text` without its control sequences. -/
def stripColor (text : String) : String :=
  String.ofList (stripFrom [] text.toList)

end Casewise.Text
