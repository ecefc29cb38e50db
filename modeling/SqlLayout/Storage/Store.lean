import SqlLayout.Storage.Path
import SqlLayout.Text.Lines
import SqlLayout.Text.Quoted

/-!
# Files and directories

A store is a tree of files and directories around a working directory. Every change of a file
gives it a modification stamp that nothing in the store had before. Directories above the working
directory and the root directory always exist. There may be places that can be read and not
written to.
-/

namespace SqlLayout

open Text

/-- Why a file cannot be used. -/
inductive FileFault where
  /-- Nothing is there. -/
  | missing
  /-- A name on the way is a file. -/
  | notDirectory
  /-- A directory is there. -/
  | isDirectory
  /-- A name on the way, or the whole path, has too many bytes. -/
  | nameTooLong
  /-- There is no permission to write. -/
  | denied
deriving DecidableEq

/-- A file that cannot be used. -/
structure FileError where
  /-- Why. -/
  fault : FileFault
  /-- The path under which it was looked for. -/
  path : Path
deriving DecidableEq

namespace FileError

/-- The wording of a fault. -/
def describe : FileFault → String
  | .missing => "[Errno 2] No such file or directory"
  | .notDirectory => "[Errno 20] Not a directory"
  | .isDirectory => "[Errno 21] Is a directory"
  | .nameTooLong => "[Errno 36] File name too long"
  | .denied => "[Errno 13] Permission denied"

/-- The wording of an error. -/
def message (error : FileError) : String :=
  describe error.fault ++ ": " ++ quoted error.path.shown

end FileError

/-- A directory that always exists. -/
inductive Anchor where
  /-- The directory a number of levels above the working directory. -/
  | above (levels : Nat)
  /-- The root directory. -/
  | root
deriving DecidableEq

/-- A place in a store: names downward from an anchor. -/
structure Location where
  /-- The directory that the names start from. -/
  anchor : Anchor
  /-- The names. -/
  names : List String
deriving DecidableEq

namespace Location

/-- The working directory. -/
def here : Location := ⟨.above 0, []⟩

/-- The directory around a location. -/
def parent (location : Location) : Location :=
  match location.names, location.anchor with
  | [], .above levels => ⟨.above (levels + 1), []⟩
  | [], .root => location
  | names, _ => { location with names := names.dropLast }

/-- A name in a directory. -/
def child (location : Location) (name : String) : Location :=
  { location with names := location.names ++ [name] }

/-- Where a part of a path leads. -/
def step (location : Location) (part : String) : Location :=
  if part = ".." then location.parent else location.child part

/-- The directory that the parts of a path start from. -/
def startOf (path : Path) : Location :=
  if path.root = "" then here else ⟨.root, []⟩

end Location

/-- What is at a location. -/
inductive Node where
  /-- A file with its bytes and its modification stamp. -/
  | file (content : ByteArray) (stamp : Nat)
  /-- A directory with its modification stamp. -/
  | directory (stamp : Nat)

namespace Node

/-- The modification stamp. -/
def stamp : Node → Nat
  | .file _ stamp => stamp
  | .directory stamp => stamp

/-- The same node with another stamp. -/
def withStamp (stamp : Nat) : Node → Node
  | .file content _ => .file content stamp
  | .directory _ => .directory stamp

end Node

/-- A tree of files and directories. -/
structure Store where
  /-- The next modification stamp; 1 is the stamp of directories that were never changed. -/
  clock : Nat := 2
  /-- What is where, each location once. -/
  nodes : List (Location × Node) := []
  /-- Where there is no permission to write. -/
  readOnly : List Location := []

namespace Store

/-- What is at a location. An anchor is a directory even when the store has nothing to say about
it. -/
def node? (store : Store) (location : Location) : Option Node :=
  (store.nodes.lookup location).or
    (if location.names = [] then some (.directory 1) else none)

/-- Where the parts of a path lead from a location, if everything on the way is a directory and
every name is one that a directory can hold. -/
def walk (store : Store) (location : Location) : List String → Except FileFault Location
  | [] => .ok location
  | part :: parts =>
    match store.node? location with
    | some (.directory _) =>
      if Path.maxNameBytes < part.utf8ByteSize then .error .nameTooLong
      else store.walk (location.step part) parts
    | some (.file ..) => .error .notDirectory
    | none => .error .missing

/-- The location that a path names, whether or not something is there. -/
def locate (store : Store) (path : Path) : Except FileFault Location :=
  if Path.maxPathBytes < path.shown.utf8ByteSize then .error .nameTooLong
  else store.walk (.startOf path) path.parts

/-- What is under a path. -/
def find (store : Store) (path : Path) : Except FileFault Node :=
  match store.locate path with
  | .error fault => .error fault
  | .ok location =>
    match store.node? location with
    | none => .error .missing
    | some node => .ok node

/-- The bytes of the file under a path. -/
def read (store : Store) (path : Path) : Except FileError ByteArray :=
  match store.find path with
  | .error fault => .error ⟨fault, path⟩
  | .ok (.directory _) => .error ⟨.isDirectory, path⟩
  | .ok (.file content _) => .ok content

/-- The modification stamp of what is under a path. -/
def stamp? (store : Store) (path : Path) : Option Nat :=
  (store.find path).toOption.map Node.stamp

/-- Puts a node at a location in place of what was there. -/
def put (store : Store) (location : Location) (node : Node) : Store :=
  if (store.nodes.lookup location).isSome then
    { store with nodes := store.nodes.map fun entry =>
        if entry.1 = location then (location, node) else entry }
  else { store with nodes := store.nodes ++ [(location, node)] }

/-- Gives what is at a location, if anything, a new modification stamp. -/
def touchAt (store : Store) (location : Location) : Store :=
  match store.node? location with
  | none => store
  | some node =>
    { store.put location (node.withStamp store.clock) with clock := store.clock + 1 }

/-- Writes a file at a location. A new file also changes the directory it is in. -/
def putFile (store : Store) (location : Location) (content : ByteArray) : Store :=
  let written := { store.put location (.file content store.clock) with clock := store.clock + 1 }
  if (store.nodes.lookup location).isSome then written else written.touchAt location.parent

/-- Where a file can be put under a path: where the path leads, unless a directory is there. -/
def placeOf (store : Store) (path : Path) : Except FileError Location :=
  match store.locate path with
  | .error fault => .error ⟨fault, path⟩
  | .ok location =>
    match store.node? location with
    | some (.directory _) => .error ⟨.isDirectory, path⟩
    | _ => .ok location

/-- Writes the file under a path, making it if it is not there. -/
def write (store : Store) (path : Path) (content : ByteArray) : Except FileError Store :=
  match store.placeOf path with
  | .error error => .error error
  | .ok location =>
    if store.readOnly.contains location then .error ⟨.denied, path⟩
    else .ok (store.putFile location content)

/-! ## Text files -/

/-- Why the text of a file cannot be had. -/
inductive TextFault where
  /-- The file cannot be used. -/
  | file (error : FileError)
  /-- The bytes are no UTF-8. -/
  | undecodable

/-- The text of the file under a path, with its line breaks made line feeds. -/
def readText (store : Store) (path : Path) : Except TextFault String :=
  match store.read path with
  | .error error => .error (.file error)
  | .ok content =>
    match String.fromUTF8? content with
    | none => .error .undecodable
    | some text => .ok (unifiedNewlines text)

/-- Writes a text to the file under a path. -/
def writeText (store : Store) (path : Path) (text : String) : Except FileError Store :=
  store.write path text.toUTF8

/-! ## Changes from outside

Others may write where a command may not. -/

/-- Makes every directory on the way along a path that is not there yet. -/
def makeDirectories (store : Store) (location : Location) : List String → Store
  | [] => store
  | part :: parts =>
    let next := location.step part
    match store.node? next with
    | some _ => store.makeDirectories next parts
    | none =>
      makeDirectories
        { store.put next (.directory store.clock) with clock := store.clock + 1 } next parts

/-- Makes a directory and those around it. -/
def addDirectory (store : Store) (path : Path) : Store :=
  store.makeDirectories (.startOf path) path.parts

/-- Writes a file and makes the directories around it. -/
def addFile (store : Store) (path : Path) (content : ByteArray) : Store :=
  let around := store.addDirectory path.parent
  match around.placeOf path with
  | .error _ => store
  | .ok location => around.putFile location content

/-- Gives the file under a path a new modification stamp. -/
def touch (store : Store) (path : Path) : Store :=
  match store.locate path with
  | .error _ => store
  | .ok location => store.touchAt location

/-- Removes the file under a path. -/
def delete (store : Store) (path : Path) : Store :=
  match store.locate path with
  | .error _ => store
  | .ok location =>
    if (store.nodes.lookup location).isSome then
      { store with nodes := store.nodes.filter fun entry => entry.1 ≠ location }.touchAt
        location.parent
    else store

/-- The files below the working directory with their bytes, in the order of their paths. -/
def files (store : Store) : List (String × ByteArray) :=
  let found := store.nodes.filterMap fun (location, node) =>
    match location.anchor, node with
    | .above 0, .file content _ => some ("/".intercalate location.names, content)
    | _, _ => none
  found.mergeSort fun a b => a.1 ≤ b.1

end Store

end SqlLayout
