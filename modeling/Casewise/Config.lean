import Casewise.Config.Toml
import Casewise.Files

/-!
# Settings

Settings are found in the nearest file of their name at or above a starting place, and every setting
that the file leaves out has its usual value.

## Main definitions

* `Config`: the settings.
* `Config.find?`: the place of the file with the settings for a starting place.
* `Config.load`: the settings in a file.
* `Config.forPlace`: the settings for a starting place.
-/

namespace Casewise

/-- The settings of the command line. -/
structure Config where
  /-- Whether programs are checked before they are run. -/
  typecheck : Bool := true
  /-- Whether a program goes on after a statement that fails. -/
  keepGoing : Bool := false
  /-- Whether programs know the built-in functions. -/
  builtins : Bool := true
  /-- Whether events are logged. -/
  trace : Bool := false
  /-- Whether diagnostics are colored. -/
  color : Bool := true
  deriving DecidableEq, Repr, Inhabited

namespace Config

/-- Why there are no settings. -/
inductive Problem where
  /-- There is no file with settings. -/
  | missing
  /-- The file is malformed. -/
  | malformed
  deriving DecidableEq, Repr

/-- The problem in words. -/
def Problem.message : Problem → String
  | missing => "there is no matchbox.toml"
  | malformed => "matchbox.toml is malformed"

/-- The name of files with settings. -/
def fileName : String :=
  "matchbox.toml"

/-- The places where settings for `start` may be found, the nearest first. A file has the settings
of its directory. -/
def candidates (files : Files) (start : Place) : List Place :=
  let directory := if (files.text? start).isSome then start.dropLast else start
  (Place.ancestors directory).map (· ++ [fileName])

/-- The place of the file with the settings for `start`. -/
def find? (files : Files) (start : Place) : Option Place :=
  (candidates files start).find? fun p => (files.text? p).isSome

/-- The settings in a document. -/
def ofDocument (d : Toml.Document) : Config :=
  let flag (table name : String) (usual : Bool) : Bool :=
    ((d.tables.get? table).bind (·.get? name)).getD usual
  { typecheck := flag "run" "typecheck" true
    keepGoing := flag "run" "keep_going" false
    builtins := flag "run" "prelude" true
    trace := flag "run" "trace" false
    color := flag "output" "color" true }

/-- The settings that the text `source` gives. A table of settings cannot be a flag. -/
def parse (source : String) : Except Problem Config :=
  match Toml.parse? source with
  | none => throw .malformed
  | some d =>
    if d.flags.contains "run" || d.flags.contains "output" then throw .malformed
    else .ok (ofDocument d)

/-- The settings in the file for `start`. -/
def load (files : Files) (start : Place) : Except Problem Config :=
  match (find? files start).bind files.text? with
  | none => throw .missing
  | some source => parse source

/-- The settings for `start`: those of its file, or the usual ones if it has none. -/
def forPlace (files : Files) (start : Place) : Except Problem Config :=
  match load files start with
  | .error .missing => .ok {}
  | r => r

end Config

end Casewise
