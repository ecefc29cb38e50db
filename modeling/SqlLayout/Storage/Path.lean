/-!
# Paths

A path is a sequence of names, relative to the working directory or absolute. Empty names and
single dots mean nothing and are dropped; double dots are kept, since what they mean depends on
the directories that are there.
-/

namespace SqlLayout

/-- A path to a file or a directory. -/
structure Path where
  /-- What the path starts with: nothing, one slash or exactly two. -/
  root : String
  /-- The names between slashes. -/
  parts : List String
deriving DecidableEq

namespace Path

/-- The working directory. -/
def here : Path := ⟨"", []⟩

/-- The slashes that make a path absolute. Only a path with exactly two slashes keeps both. -/
def rootOf (text : String) : String :=
  match (text.toList.takeWhile (· == '/')).length with
  | 0 => ""
  | 2 => "//"
  | _ => "/"

/-- The path that a text spells. -/
def ofText (text : String) : Path where
  root := rootOf text
  parts := ((text.toList.splitOn '/').map String.ofList).filter fun part => part ≠ "" && part ≠ "."

/-- The text of a path. -/
def shown (path : Path) : String :=
  let text := path.root ++ "/".intercalate path.parts
  if text = "" then "." else text

/-- Whether the system can be asked for a path at all: no name holds a null character. -/
def isNameable (path : Path) : Bool :=
  !path.shown.toList.contains '\x00'

/-- The greatest number of bytes of a name. -/
def maxNameBytes : Nat := 255

/-- The greatest number of bytes of a path. -/
def maxPathBytes : Nat := 4095

/-- The directory that a path is in. -/
def parent (path : Path) : Path :=
  { path with parts := path.parts.dropLast }

/-- The path to a name in a directory. -/
def child (path : Path) (name : String) : Path :=
  { path with parts := path.parts ++ [name] }

end Path

end SqlLayout
