import Casewise.Command.Perform

/-!
# The command line

The only part of the program that touches the world: it finds the texts that a command may read, and
writes what the command answers.
-/

namespace Casewise

/-- The text of the file at a place, if it can be read. -/
def readText? (p : Place) : IO (Option (Place × String)) := do
  try
    return some (p, ← IO.FS.readFile (Place.path p))
  catch _ =>
    return none

/-- Writes a line to the stream it belongs to, without colors if that is not a terminal. -/
def write (w : Written) : IO Unit := do
  let out ← IO.getStdout
  let err ← IO.getStderr
  match w with
  | .printed text =>
    if ← out.isTty then out.putStrLn text else out.putStr w.stdout
  | .reported text =>
    if ← err.isTty then err.putStrLn text else err.putStr w.stderr
  | .logged _ => err.putStr w.stderr

/-- Performs the command that the arguments ask for. -/
def performArguments (args : List String) : IO UInt32 := do
  match Command.parse args with
  | .error e =>
    IO.eprintln ("Error: " ++ e.message)
    return 2
  | .ok command =>
    let here ← IO.currentDir
    let current := Place.ofPath [] here.toString
    let texts ← (command.places current).filterMapM readText?
    let directories ← (command.passed current).filterM fun p => (here / p.path).isDir
    match command.perform usualDepth ⟨current, texts, directories⟩ with
    | .ok outcome =>
      outcome.written.forM write
      return outcome.status.toUInt32
    | .error (.usage e) =>
      IO.eprintln ("Error: " ++ e.message)
      return 2
    | .error (.config p) =>
      IO.eprintln ("Error: " ++ p.message)
      return 1
    | .error (.overlong limit digits) =>
      IO.eprintln ("Error: a number has " ++ toString digits ++ " digits, at most " ++
        toString limit ++ " are converted")
      return 1

end Casewise

/-- The command line. -/
def main (args : List String) : IO UInt32 :=
  Casewise.performArguments args
