import SqlLayout.Command.World

/-!
# Watching a file

A watch looks at a file again and again and formats it whenever its modification stamp differs
from the one that was seen last. The stamp that the watch gives the file by writing to it counts as
seen. Between two looks the file may be changed from outside.
-/

namespace SqlLayout.Command

/-- A watch between two looks. -/
structure Watch where
  /-- The files and the printed text. -/
  world : World
  /-- The modification stamp that was seen last. -/
  seen : Nat := 0

/-- Something that happens to files between two looks. -/
inductive Event where
  /-- A file is written. -/
  | write (path : Path) (content : ByteArray)
  /-- A file gets a new modification stamp. -/
  | touch (path : Path)
  /-- A file is removed. -/
  | delete (path : Path)
  /-- Nothing happens. -/
  | idle

/-- The files after an event. -/
def Event.apply (store : Store) : Event → Store
  | .write path content => store.addFile path content
  | .touch path => store.touch path
  | .delete path => store.delete path
  | .idle => store

namespace Watch

/-- Takes note of what kept a file from being formatted: a file that cannot be used is reported,
and a breakdown ends the watch. -/
def stopped (watch : Watch) (world : World) : Halt → Option Breakdown × Watch
  | .file error =>
    (none, { watch with world := world.warnLine ("error: " ++ error.message) })
  | .breakdown cause => (some cause, { watch with world := world })

/-- Tells that the file was formatted. -/
def announce (watch : Watch) (path : Path) : Watch :=
  { watch with world := watch.world.warnLine ("Formatted " ++ path.shown) }

/-- Writes the formatted text of the file, if it goes to another file or differs. -/
def deliver (job : Job) (path : Path) (watch : Watch) (source formatted : String) :
    Option Breakdown × Watch :=
  let target := job.output.getD path
  if target = path ∧ formatted = source then (none, watch.announce path)
  else
    match watch.world.writeText target formatted with
    | (world, .error halt) => watch.stopped world halt
    | (world, .ok ()) =>
      let seen := if target = path then (world.store.stamp? path).getD watch.seen else watch.seen
      (none, { watch with world := world, seen := seen }.announce path)

/-- Formats the text of the file. -/
def reformat (memory : Memory) (job : Job) (path : Path) (watch : Watch) (source : String) :
    Option Breakdown × Watch :=
  match watch.world.formatSource memory job source with
  | (world, .error halt) => watch.stopped world halt
  | (world, .ok formatted) => { watch with world := world }.deliver job path source formatted

/-- Looks at the file. The first part of the answer tells what ended the watch, if anything. -/
def look (memory : Memory) (job : Job) (path : Path) (watch : Watch) : Option Breakdown × Watch :=
  if !path.isNameable then (some .unnameable, watch)
  else
    match watch.world.store.stamp? path with
    | none => (none, watch)
    | some stamp =>
      if stamp = watch.seen then (none, watch)
      else
        let watch := { watch with seen := stamp }
        match watch.world.readText path with
        | .error halt => watch.stopped watch.world halt
        | .ok source => watch.reformat memory job path source

end Watch

/-- What there is to see after a look: what it printed to the standard error, and the files. -/
structure Snapshot where
  /-- The printed text. -/
  stderr : String
  /-- The files with their bytes. -/
  files : List (String × ByteArray)

/-- What a watch saw and left. -/
structure Watched where
  /-- What there was to see after each look. -/
  snapshots : List Snapshot
  /-- The world at the end, with what was printed after the last snapshot. -/
  world : World
  /-- What ended the watch, if it did not end by itself. -/
  breakdown : Option Breakdown

namespace Watch

/-- What there is to see. -/
def snapshot (watch : Watch) : Snapshot :=
  ⟨watch.world.stderr, watch.world.store.files⟩

/-- The watch once what it printed has been seen, after an event. -/
def resume (watch : Watch) (event : Event) : Watch :=
  { watch with world := { watch.world with store := event.apply watch.world.store, stderr := "" } }

/-- Looks at the file before, between and after the events. -/
def run (memory : Memory) (job : Job) (path : Path) : List Event → Watch → Watched
  | events, watch =>
    match watch.look memory job path with
    | (some cause, watch) => ⟨[], watch.world, some cause⟩
    | (none, watch) =>
      match events with
      | [] => ⟨[watch.snapshot], (watch.resume .idle).world, none⟩
      | event :: rest =>
        let later := run memory job path rest (watch.resume event)
        { later with snapshots := watch.snapshot :: later.snapshots }

/-- A watch that has not looked yet. -/
def opened (path : Path) (world : World) : Watch where
  world := world.warnLine ("Watching " ++ path.shown ++ " for changes...")

/-- Starts watching a file. -/
def start (memory : Memory) (job : Job) (path : Path) (events : List Event) (world : World) :
    Watched :=
  run memory job path events (opened path world)

end Watch

end SqlLayout.Command
