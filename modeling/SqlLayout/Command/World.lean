import SqlLayout.Command.Job
import SqlLayout.Format
import SqlLayout.Token.Dump

/-!
# What a command acts on

A command reads and writes files and prints to its two output streams.
-/

namespace SqlLayout.Command

/-- The files and the printed text. -/
structure World where
  /-- The files. -/
  store : Store
  /-- What was printed to the standard output. -/
  stdout : String := ""
  /-- What was printed to the standard error. -/
  stderr : String := ""

namespace World

/-- Prints to the standard output. -/
def print (world : World) (text : String) : World :=
  { world with stdout := world.stdout ++ text }

/-- Prints to the standard error. -/
def warn (world : World) (text : String) : World :=
  { world with stderr := world.stderr ++ text }

/-- Prints a line to the standard error. -/
def warnLine (world : World) (line : String) : World :=
  world.warn (line ++ "\n")

end World

/-- Why a command ends early. -/
inductive Halt where
  /-- A file cannot be used. -/
  | file (error : FileError)
  /-- The command breaks down. -/
  | breakdown (cause : Breakdown)

/-- The world behind an attempt, and its result. -/
abbrev Attempt (α : Type) := World × Except Halt α

namespace World

/-- Formats a source, showing its tokens if the job asks for it. -/
def formatSource (memory : Memory) (world : World) (job : Job) (source : String) : Attempt String :=
  let tokens := fuse (tokenize source)
  (if job.debug then world.warn (dumpTokens false tokens) else world,
    match render? memory job.options tokens with
    | .ok formatted => .ok formatted
    | .error fault => .error (.breakdown (.unwritable fault)))

/-- The text of a file. -/
def readText (world : World) (path : Path) : Except Halt String :=
  if !path.isNameable then .error (.breakdown .unnameable)
  else
    match world.store.readText path with
    | .ok text => .ok text
    | .error (.file error) => .error (.file error)
    | .error .undecodable => .error (.breakdown .undecodable)

/-- Writes a text to a file. -/
def writeText (world : World) (path : Path) (text : String) : Attempt Unit :=
  if !path.isNameable then (world, .error (.breakdown .unnameable))
  else
    match world.store.writeText path text with
    | .ok store => ({ world with store := store }, .ok ())
    | .error error => (world, .error (.file error))

/-- Writes a text to the output file of a job, or prints it. -/
def emit (world : World) (job : Job) (text : String) : Attempt Unit :=
  match job.output with
  | some path => world.writeText path text
  | none => (world.print text, .ok ())

end World

end SqlLayout.Command
