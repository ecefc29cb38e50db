import SqlLayout.Command.Usage
import SqlLayout.Command.Watch

/-!
# Running a command

A command reads its arguments, settles its job and does it. It ends with an exit code: 0 if all
went well, 1 if files would change, 2 if something could not be done.
-/

namespace SqlLayout.Command

/-- How a command ends. -/
inductive Ending where
  /-- With an exit code, its work done or refused. -/
  | exit (code : Nat)
  /-- With an exit code, before any work, by what its arguments say. -/
  | usage (code : Nat)
  /-- Abruptly. -/
  | breakdown (cause : Breakdown)
deriving DecidableEq

/-- What a command leaves. -/
structure Outcome where
  /-- The files and the printed text. -/
  world : World
  /-- How it ended. -/
  ending : Ending
  /-- What there was to see while it watched a file. -/
  snapshots : List Snapshot := []

/-! ## Formatting files -/

/-- Puts the formatted text of a file where the job wants it; answers whether a check found a
change. -/
def deliverFile (job : Job) (path : Path) (source formatted : String) (world : World) :
    Attempt Bool :=
  if job.check then
    if formatted = source then (world, .ok false)
    else (world.warnLine ("would reformat " ++ path.shown), .ok true)
  else if job.inPlace then
    if formatted = source then (world, .ok false)
    else
      match world.writeText path formatted with
      | (world, .error halt) => (world, .error halt)
      | (world, .ok ()) => (world.warnLine ("Formatted " ++ path.shown), .ok false)
  else
    match world.emit job formatted with
    | (world, .error halt) => (world, .error halt)
    | (world, .ok ()) => (world, .ok false)

/-- Formats one file; answers whether a check found a change. -/
def formatFile (memory : Memory) (job : Job) (path : Path) (world : World) : Attempt Bool :=
  match world.readText path with
  | .error halt => (world, .error halt)
  | .ok source =>
    match world.formatSource memory job source with
    | (world, .error halt) => (world, .error halt)
    | (world, .ok formatted) => deliverFile job path source formatted world

/-- Formats files in order, up to the first that cannot be used; answers whether a check found a
change. -/
def formatFiles (memory : Memory) (job : Job) : List Path → World → Attempt Bool
  | [], world => (world, .ok false)
  | path :: paths, world =>
    match formatFile memory job path world with
    | (world, .error halt) => (world, .error halt)
    | (world, .ok changed) =>
      match formatFiles memory job paths world with
      | (world, .error halt) => (world, .error halt)
      | (world, .ok others) => (world, .ok (changed || others))

/-- Formats the standard input; answers whether a check found a change. -/
def formatInput (memory : Memory) (job : Job) (input : String) (world : World) : Attempt Bool :=
  match world.formatSource memory job input with
  | (world, .error halt) => (world, .error halt)
  | (world, .ok formatted) =>
    if job.check then
      if formatted = input then (world, .ok false)
      else (world.warnLine "would reformat <stdin>", .ok true)
    else
      match world.emit job formatted with
      | (world, .error halt) => (world, .error halt)
      | (world, .ok ()) => (world, .ok false)

/-- What an attempt at formatting leaves. -/
def settle : Attempt Bool → Outcome
  | (world, .ok changed) => { world := world, ending := .exit (if changed then 1 else 0) }
  | (world, .error (.file error)) =>
    { world := world.warnLine ("error: " ++ error.message), ending := .exit 2 }
  | (world, .error (.breakdown cause)) => { world := world, ending := .breakdown cause }

/-! ## From arguments to an outcome -/

/-- Does a job. -/
def perform (memory : Memory) (job : Job) (input : String) (events : List Event) (world : World) :
    Outcome :=
  match job.watch, job.inputs with
  | true, path :: _ =>
    let watched := Watch.start memory job path events world
    { world := watched.world
      ending := (watched.breakdown.map Ending.breakdown).getD (.exit 0)
      snapshots := watched.snapshots }
  | _, [] => settle (formatInput memory job (Text.unifiedNewlines input) world)
  | _, paths => settle (formatFiles memory job paths world)

/-- What arguments that make no job leave. -/
def refuse (world : World) : JobError → Outcome
  | .conflict cause =>
    { world := world.warnLine ("error: " ++ cause.message), ending := .exit 2 }
  | .setting error => { world := world.warnLine error.report, ending := .exit 2 }
  | .malformedConfig reason =>
    { world := world.warnLine ("error: cannot read config: " ++ reason), ending := .exit 2 }
  | .unreachableConfig error =>
    { world := world.warnLine ("error: cannot read config: " ++ error.message), ending := .exit 2 }
  | .breakdown cause => { world := world, ending := .breakdown cause }

/-- The job that the arguments of a command line ask for, or what they leave without one. -/
def prepare (platform : Platform) (texts : List String) (store : Store) : Except Outcome Job :=
  let world : World := { store := store }
  match parseArguments platform texts with
  | .error .help => .error { world := world.print helpText, ending := .usage 0 }
  | .error (.error cause) => .error { world := world.warn cause.report, ending := .usage 2 }
  | .ok arguments =>
    match Job.ofArguments platform store arguments with
    | .error error => .error (refuse world error)
    | .ok job => .ok job

/-- Runs a command. The events are what happens to the files while one of them is watched. -/
def run (platform : Platform) (texts : List String) (input : String) (events : List Event)
    (store : Store) : Outcome :=
  match prepare platform texts store with
  | .error outcome => outcome
  | .ok job => perform platform.memory job input events { store := store }

end SqlLayout.Command
