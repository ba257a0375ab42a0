/-!
# Files

What a command can know of the file system: the directory it is started in, the texts of some files,
and some directories. A place in the file system is the list of names that lead to it from the root
directory.

A path is read in two ways. `Place.ofPath` only looks at its names, and gives every path a place,
whether anything is there or not. `Files.placeAt?` follows the path through the file system, where
only a directory leads on.
-/

namespace Casewise

/-- The names that lead to a file or directory from the root directory. -/
abbrev Place := List String

namespace Place

/-- The parts of a path between its slashes, where `part`, the last character in front, has been
read already. -/
def parts (part : List Char) : (path : List Char) → List String
  | [] => [String.ofList part.reverse]
  | c :: rest =>
    if c = '/' then String.ofList part.reverse :: parts [] rest else parts (c :: part) rest

/-- The place one step from `p`: two dots go up, and any other name goes down. Going up from the
root directory stays there. -/
def step (p : Place) (name : String) : Place :=
  if name = ".." then p.dropLast else p ++ [name]

/-- The place where a path begins that is followed from `current`: the root directory if the path
starts with a slash. -/
def origin (current : Place) (path : String) : Place :=
  if path.toList.head? = some '/' then [] else current

/-- The names of the steps of a path, without those that stay where they are. -/
def steps (path : String) : List String :=
  (parts [] path.toList).filter fun name => name ≠ "" ∧ name ≠ "."

/-- The place that the path `path` leads to from `current`, by its names alone. -/
def ofPath (current : Place) (path : String) : Place :=
  (steps path).foldl step (origin current path)

/-- The places that a path passes on its way from `p`, where it starts, and before it ends. -/
def passed (p : Place) : (names : List String) → List Place
  | [] => []
  | name :: names => p :: passed (p.step name) names

/-- The place itself and the directories around it, the nearest first. -/
def ancestors (p : Place) : List Place :=
  (List.range (p.length + 1)).reverse.map fun n => p.take n

/-- The path that leads to the place from the root directory. -/
def path (p : Place) : String :=
  p.foldl (fun path name => path ++ "/" ++ name) ""

end Place

/-- The known part of a file system. -/
structure Files where
  /-- The directory in which the command is started. -/
  current : Place := []
  /-- The texts of the known files. -/
  texts : List (Place × String) := []
  /-- Known directories, besides those that the other known places lie in. -/
  directories : List Place := []
  deriving Inhabited

namespace Files

/-- The text of the file at a place, if there is a file and it is known. -/
def text? (files : Files) (p : Place) : Option String :=
  files.texts.lookup p

/-- Whether a known directory is at the place `p`. With a file or directory, the directories around
it are known too. -/
def isDirectory (files : Files) (p : Place) : Bool :=
  (files.current :: files.directories ++ files.texts.map (·.1.dropLast)).any p.isPrefixOf

/-- The place that a path of the steps `names` leads to from `p`, if each step starts from a known
directory. -/
def walk? (files : Files) (p : Place) : (names : List String) → Option Place
  | [] => some p
  | name :: names => if files.isDirectory p then files.walk? (p.step name) names else none

/-- The place that a path leads to from the current directory, if it passes only directories. -/
def placeAt? (files : Files) (path : String) : Option Place :=
  files.walk? (.origin files.current path) (Place.steps path)

/-- The text of the file that a path leads to from the current directory. -/
def textAt? (files : Files) (path : String) : Option String :=
  (files.placeAt? path).bind files.text?

end Files

end Casewise
