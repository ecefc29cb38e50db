import SqlLayout.Command.Run

/-!
# What is to be expected of files

What becomes of files that are formatted in order can be told from the files as they are (`foresee`): each has
its text and the text it is to have, up to the first that cannot be formatted (`foresee_paths`). A check comes
to exactly that and writes nothing (`formatFiles_check`).
-/

namespace SqlLayout.Command

/-- A file that is formatted. -/
structure Treated where
  /-- Where it is. -/
  path : Path
  /-- Its text, with line breaks made line feeds. -/
  source : String
  /-- The formatted text. -/
  text : String
deriving DecidableEq

/-- Whether formatting changes the text. -/
def Treated.changes (treated : Treated) : Bool :=
  treated.text ≠ treated.source

/-- What keeps a file from being formatted. -/
structure Obstacle where
  /-- What it means for the command. -/
  halt : Halt
  /-- The text of the file, if it can be read. -/
  source : Option String

/-- What formatting the file under a path comes to. -/
def treat (memory : Memory) (options : Options) (store : Store) (path : Path) : Except Obstacle Treated :=
  match World.readText { store := store } path with
  | .error halt => .error ⟨halt, none⟩
  | .ok source =>
    match format? memory options source with
    | .error fault => .error ⟨.breakdown (.unwritable fault), some source⟩
    | .ok text => .ok ⟨path, source, text⟩

/-- What formatting files in order comes to. -/
structure Forecast where
  /-- The files that are formatted. -/
  treated : List Treated
  /-- What keeps the next file from being formatted, if there is one. -/
  obstacle : Option Obstacle

/-- What formatting files comes to once one more has been formatted before them. -/
def Forecast.behind (forecast : Forecast) (treated : Treated) : Forecast :=
  { forecast with treated := treated :: forecast.treated }

/-- What formatting the files under paths comes to if they stay as they are in a store: they are formatted up
to the first that cannot be. -/
def foresee (memory : Memory) (options : Options) (store : Store) : List Path → Forecast
  | [] => ⟨[], none⟩
  | path :: paths =>
    match treat memory options store path with
    | .error obstacle => ⟨[], some obstacle⟩
    | .ok treated => (foresee memory options store paths).behind treated

/-- What a job prints of a source before it is laid out. -/
def Job.dump (job : Job) (source : String) : String :=
  if job.debug then dumpTokens false (fuse (tokenize source)) else ""

/-- What is printed for a file: what the job shows of its source, and a line if its text changes. -/
def Treated.report (job : Job) (verb : String) (treated : Treated) : String :=
  job.dump treated.source ++ if treated.changes then verb ++ treated.path.shown ++ "\n" else ""

namespace Forecast

/-- What is printed for files, with a verb for those whose text changes. -/
def printed (job : Job) (verb : String) (forecast : Forecast) : String :=
  String.join (forecast.treated.map (Treated.report job verb)) ++
    ((forecast.obstacle.bind Obstacle.source).map job.dump).getD ""

/-- The line that tells of a file that cannot be used. -/
def closing (forecast : Forecast) : String :=
  match forecast.obstacle with
  | some ⟨.file error, _⟩ => "error: " ++ error.message ++ "\n"
  | _ => ""

/-- Whether some text changes. -/
def changes (forecast : Forecast) : Bool :=
  forecast.treated.any Treated.changes

/-- How a command ends that has an exit code for files without an obstacle. -/
def ending (forecast : Forecast) (code : Nat) : Ending :=
  match forecast.obstacle with
  | none => .exit code
  | some ⟨.file _, _⟩ => .exit 2
  | some ⟨.breakdown cause, _⟩ => .breakdown cause

/-- The result of an attempt that has an answer for files without an obstacle. -/
def result (forecast : Forecast) (answer : Bool) : Except Halt Bool :=
  match forecast.obstacle with
  | none => .ok answer
  | some obstacle => .error obstacle.halt

end Forecast

variable {memory : Memory} {options : Options} {store : Store} {job : Job} {world : World} {path : Path}
  {paths : List Path} {treated : Treated}

/-- The text of a file is that of the store, if the system can be asked for the file. -/
theorem World.readText_eq_ok_iff {text : String} :
    world.readText path = .ok text ↔ path.isNameable = true ∧ world.store.readText path = .ok text := by
  rw [readText]
  cases path.isNameable with
  | false => simp
  | true =>
    simp only [Bool.not_true, Bool.false_eq_true, if_false, true_and]
    split
    next found => rw [found]; simp
    next found => rw [found]; simp
    next found => rw [found]; simp

/-- A file that is formatted is a file with that text, and the new text is formatted. -/
theorem treat_eq_ok (found : treat memory options store path = .ok treated) :
    treated.path = path ∧ path.isNameable = true ∧ store.readText path = .ok treated.source ∧
      treated.text = format options treated.source := by
  unfold treat at found
  split at found
  next => cases found
  next source read =>
    split at found
    next => cases found
    next text laid =>
      cases found
      obtain ⟨named, held⟩ := World.readText_eq_ok_iff.1 read
      exact ⟨rfl, named, held, (format_of_format? laid).symm⟩

/-- Every file that is formatted is under one of the paths, with what formatting it comes to. -/
theorem treat_of_mem_foresee (member : treated ∈ (foresee memory options store paths).treated) :
    treated.path ∈ paths ∧ treat memory options store treated.path = .ok treated := by
  induction paths with
  | nil => cases member
  | cons path paths ih =>
    rw [foresee] at member
    split at member
    next => cases member
    next first found =>
      rcases List.mem_cons.1 member with here | behind
      · subst here
        obtain ⟨rfl, -⟩ := treat_eq_ok found
        exact ⟨List.mem_cons_self, found⟩
      · exact ⟨List.mem_cons_of_mem _ (ih behind).1, (ih behind).2⟩

/-- The files that are formatted are the first ones, and the next one, if any, is the first that cannot be. -/
theorem foresee_paths (memory : Memory) (options : Options) (store : Store) (paths : List Path) :
    ∃ untreated, paths = (foresee memory options store paths).treated.map Treated.path ++ untreated ∧
      match (foresee memory options store paths).obstacle with
      | none => untreated = []
      | some obstacle =>
        ∃ path rest, untreated = path :: rest ∧ treat memory options store path = .error obstacle := by
  induction paths with
  | nil => exact ⟨[], rfl, rfl⟩
  | cons path paths ih =>
    rw [foresee]
    cases found : treat memory options store path with
    | error obstacle => exact ⟨path :: paths, rfl, path, paths, rfl, found⟩
    | ok treated =>
      obtain ⟨rfl, -⟩ := treat_eq_ok found
      obtain ⟨untreated, covered, reason⟩ := ih
      exact ⟨untreated, congrArg (treated.path :: ·) covered, reason⟩

/-- Behind a file that is formatted come the others. -/
theorem foresee_of_ok (found : treat memory options store path = .ok treated) :
    foresee memory options store (path :: paths) = (foresee memory options store paths).behind treated := by
  rw [foresee, found]

/-- The first file that cannot be formatted is the obstacle. -/
theorem foresee_of_error {obstacle : Obstacle} (found : treat memory options store path = .error obstacle) :
    foresee memory options store (path :: paths) = ⟨[], some obstacle⟩ := by
  rw [foresee, found]

/-- One more file is reported before the others. -/
theorem Forecast.printed_behind (forecast : Forecast) (job : Job) (verb : String) (treated : Treated) :
    (forecast.behind treated).printed job verb = treated.report job verb ++ forecast.printed job verb := by
  rw [printed, behind, List.map_cons, String.join_cons, String.append_assoc, printed]

/-- Where there is an obstacle, a result does not depend on the answer. -/
theorem Forecast.result_or (forecast : Forecast) (first others : Bool) :
    (match forecast.result others with
      | .error halt => .error halt
      | .ok answer => .ok (first || answer)) = forecast.result (first || others) := by
  rw [result, result]
  cases forecast.obstacle <;> rfl

/-- Printing nothing changes nothing. -/
theorem World.warn_empty (world : World) : world.warn "" = world := by
  rw [warn, String.append_empty]

/-- Two texts are printed as one. -/
theorem World.warn_warn (world : World) (first second : String) :
    (world.warn first).warn second = world.warn (first ++ second) := by
  rw [warn, warn, warn, String.append_assoc]

/-- What an attempt leaves that comes to what was to be expected. -/
theorem settle_result (forecast : Forecast) (job : Job) (verb : String) (world : World) (answer : Bool) :
    settle (world.warn (forecast.printed job verb), forecast.result answer) =
      { world := world.warn (forecast.printed job verb ++ forecast.closing)
        ending := forecast.ending (if answer then 1 else 0) } := by
  obtain ⟨treated, obstacle⟩ := forecast
  rw [Forecast.result, Forecast.closing, Forecast.ending]
  match obstacle with
  | none => rw [String.append_empty]; rfl
  | some ⟨.file error, source⟩ =>
    rw [← World.warn_warn]
    rfl
  | some ⟨.breakdown cause, source⟩ => rw [String.append_empty]; rfl

/-! ## One file -/

/-- Formatting a source prints what the job shows of it. -/
theorem World.formatSource_eq (memory : Memory) (world : World) (job : Job) (source : String) :
    world.formatSource memory job source =
      (world.warn (job.dump source),
        match format? memory job.options source with
        | .ok text => .ok text
        | .error fault => .error (.breakdown (.unwritable fault))) := by
  rw [formatSource, Job.dump]
  split
  next => rfl
  next => rw [warn_empty]; rfl

/-- Formatting a file comes to what is to be expected of it. -/
theorem formatFile_eq (memory : Memory) (job : Job) (path : Path) (world : World) :
    formatFile memory job path world =
      match treat memory job.options world.store path with
      | .error obstacle => (world.warn ((obstacle.source.map job.dump).getD ""), .error obstacle.halt)
      | .ok treated =>
        deliverFile job path treated.source treated.text (world.warn (job.dump treated.source)) := by
  have reads : World.readText { store := world.store } path = world.readText path := rfl
  rw [formatFile, treat, reads]
  cases world.readText path with
  | error halt => exact congrArg (·, Except.error halt) world.warn_empty.symm
  | ok source =>
    simp only [World.formatSource_eq]
    cases format? memory job.options source <;> rfl

/-- A check reports a file whose text changes. -/
theorem deliverFile_check (checks : job.check = true) (treated : Treated) (world : World) :
    deliverFile job treated.path treated.source treated.text (world.warn (job.dump treated.source)) =
      (world.warn (treated.report job "would reformat "), .ok treated.changes) := by
  rw [deliverFile, if_pos checks, Treated.report, Treated.changes]
  by_cases same : treated.text = treated.source
  · simp [same]
  · simp [same, World.warnLine, World.warn_warn, String.append_assoc]

/-! ## Files in order -/

/-- Behind a file that is formatted come the others. -/
theorem formatFiles_cons {changed : Bool} {next : World}
    (done : formatFile memory job path world = (next, .ok changed)) (paths : List Path) :
    formatFiles memory job (path :: paths) world =
      ((formatFiles memory job paths next).1,
        match (formatFiles memory job paths next).2 with
        | .error halt => .error halt
        | .ok others => .ok (changed || others)) := by
  rw [formatFiles, done]
  dsimp only
  generalize formatFiles memory job paths next = others
  obtain ⟨after, _ | _⟩ := others <;> rfl

/-- The first file that cannot be formatted ends the attempt. -/
theorem formatFiles_of_error {obstacle : Obstacle} {verb : String}
    (found : treat memory job.options world.store path = .error obstacle) (answer : Bool) :
    formatFiles memory job (path :: paths) world =
      (world.warn ((foresee memory job.options world.store (path :: paths)).printed job verb),
        (foresee memory job.options world.store (path :: paths)).result answer) := by
  rw [formatFiles, formatFile_eq, foresee_of_error found, found]
  simp [Forecast.printed, Forecast.result]

/-- A check reports the files whose text changes and leaves all of them. -/
theorem formatFiles_check (checks : job.check = true) (paths : List Path) (world : World) :
    formatFiles memory job paths world =
      (world.warn ((foresee memory job.options world.store paths).printed job "would reformat "),
        (foresee memory job.options world.store paths).result
          (foresee memory job.options world.store paths).changes) := by
  induction paths generalizing world with
  | nil => exact congrArg (·, Except.ok false) world.warn_empty.symm
  | cons path paths ih =>
    cases found : treat memory job.options world.store path with
    | error obstacle => exact formatFiles_of_error found _
    | ok treated =>
      obtain ⟨rfl, -⟩ := treat_eq_ok found
      have done := formatFile_eq memory job treated.path world
      rw [found] at done
      rw [formatFiles_cons (done.trans (deliverFile_check checks treated world)), ih, foresee_of_ok found]
      dsimp only
      rw [Forecast.result_or, Forecast.printed_behind, ← World.warn_warn]
      rfl

end SqlLayout.Command
