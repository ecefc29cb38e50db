import SqlLayout.Command.Run

/-!
# The command line

The files that the arguments speak of are loaded into a store, the command runs on the store, and
what it printed and the files that it wrote go back to the outside. A watched file is loaded anew
before every look.
-/

namespace SqlLayout

/-- The name under which the disk knows a location. -/
def Location.diskName (location : Location) : String :=
  match location.anchor with
  | .root => "/" ++ "/".intercalate location.names
  | .above levels => "/".intercalate ("." :: List.replicate levels ".." ++ location.names)

/-- The locations on the way along a path, with the one that it leads to. -/
def Path.locations (path : Path) : List Location :=
  (List.range (path.parts.length + 1)).map fun count =>
    (path.parts.take count).foldl Location.step (.startOf path)

namespace Disk

open Command

/-- A time of the disk as a modification stamp. -/
def stampOf (time : IO.FS.SystemTime) : Nat :=
  (time.sec * 1000000000 + time.nsec.toNat).toNat

/-- What the disk has at a location. The bytes of a file are read if they matter. -/
def nodeAt? (withBytes : Bool) (location : Location) : IO (Option Node) := do
  let .ok path ← (IO.FS.realPath location.diskName).toBaseIO | return none
  let .ok data ← path.metadata.toBaseIO | return none
  let stamp := stampOf data.modified
  if data.type matches .dir then return some (.directory stamp)
  if withBytes then return some (.file (← IO.FS.readBinFile path) stamp)
  return some (.file .empty stamp)

/-- Adds what the disk has along a path to a store. -/
def addPath (withBytes : Bool) (store : Store) (path : Path) : IO Store :=
  path.locations.foldlM (fun store location => do
    match ← nodeAt? withBytes location with
    | none => return store
    | some node =>
      return { store.put location node with clock := max store.clock (node.stamp + 1) }) store

/-- The part of the disk that arguments speak of. -/
def load (arguments : Arguments) : IO Store := do
  let inputs := inputPaths arguments
  let output := (nonEmpty arguments.output).toList.map Path.ofText
  let store ← output.foldlM (addPath false) {}
  (configPath arguments.config inputs :: inputs).foldlM (addPath true) store

/-- Writes the files to the disk that have changed since a time of the store's clock. -/
def save (clock : Nat) (store : Store) : IO Unit :=
  store.nodes.forM fun (location, node) =>
    match node with
    | .file content stamp =>
      if clock ≤ stamp then IO.FS.writeBinFile location.diskName content else pure ()
    | .directory _ => pure ()

/-- Prints what a command printed and writes the files that it wrote. -/
def publish (clock : Nat) (world : World) : IO Unit := do
  save clock world.store
  (← IO.getStdout).putStr world.stdout
  (← IO.getStderr).putStr world.stderr

/-- The platform that the command runs on here: layouts are not written with an indentation of very
many spaces, and configuration files are not read where their values are nested very deeply. -/
def platform : Platform where
  memory := ⟨fun options tokens => (pieces options.commaPosition tokens).any fun piece =>
    17179869184 ≤ piece.indentWidth options && isMachineWidth (piece.indentWidth options)⟩
  stack := ⟨fun around _ => 400 < around.length⟩
  describe _ := "the file breaks the rules of its format"
  dropsDivider := false

/-- Ends over a breakdown. -/
def fail (cause : Breakdown) : IO UInt32 := do
  (← IO.getStderr).putStr ("error: " ++ cause.message ++ "\n")
  return 1

/-- Publishes an outcome and gives its exit code. -/
def finish (clock : Nat) (outcome : Outcome) : IO UInt32 := do
  publish clock outcome.world
  match outcome.ending with
  | .exit code | .usage code => return code.toUInt32
  | .breakdown cause => fail cause

/-- Watches a file for as long as the program runs, given the stamp that was seen last. -/
partial def watch (arguments : Arguments) (job : Job) (path : Path) (seen : Nat) : IO UInt32 := do
  let store ← load arguments
  let (breakdown, watched) := Watch.look platform.memory job path { world := { store := store }, seen := seen }
  publish store.clock watched.world
  if let some cause := breakdown then fail cause
  else
    -- A stamp given during the look stands for the one that the disk gave the file.
    let seen ← if watched.seen < store.clock then pure watched.seen
      else do pure (((← load arguments).stamp? path).getD watched.seen)
    IO.sleep 500
    watch arguments job path seen

/-- Does a job, given the part of the disk that it is about. -/
def perform (arguments : Arguments) (job : Job) (store : Store) : IO UInt32 := do
  match job.watch, job.inputs with
  | true, path :: _ =>
    publish store.clock (Watch.opened path { store := store }).world
    watch arguments job path 0
  | _, inputs =>
    let bytes ← if inputs.isEmpty then (← IO.getStdin).readBinToEnd else pure .empty
    match String.fromUTF8? bytes with
    | none => fail .undecodable
    | some input => finish store.clock (Command.perform platform.memory job input [] { store := store })

end Disk

end SqlLayout

open SqlLayout

/-- Runs the command with the arguments of the command line. -/
def main (texts : List String) : IO UInt32 := do
  let arguments := (Command.parseArguments Disk.platform texts).toOption.getD {}
  let store ← Disk.load arguments
  match Command.prepare Disk.platform texts store with
  | .error outcome => Disk.finish store.clock outcome
  | .ok job => Disk.perform arguments job store
