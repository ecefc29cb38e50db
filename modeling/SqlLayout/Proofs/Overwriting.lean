import SqlLayout.Proofs.Checking
import SqlLayout.Proofs.StoredFiles

/-!
# A check predicts what overwriting does

Overwriting files reports what a check of them reports, and writes the texts that differ and nothing else
(`formatFiles_inPlace`): the paths are apart, so no file that is still to be read is written before, and it
comes to what was to be expected of the files at first (`foresee_congr`), up to a text that is to be written
where there is no permission (`Forecast.overwriting`). Two commands that differ in this alone are compared as
wholes (`check_predicts_overwriting`).
-/

namespace SqlLayout.Command

/-! ## Files that are apart -/

/-- The files under paths that are never the same file. -/
def Apart (store : Store) (paths : List Path) : Prop :=
  paths.Pairwise fun first second => ∀ location, store.locate first = .ok location →
    store.locate second ≠ .ok location

/-- Whether files are apart can be decided. -/
instance (store : Store) (paths : List Path) : Decidable (Apart store paths) :=
  decidable_of_iff (paths.Pairwise fun first second => ∀ location ∈ (store.locate first).toOption,
      (store.locate second).toOption ≠ some location) <| by
    have found (path : Path) (location : Location) :
        (store.locate path).toOption = some location ↔ store.locate path = .ok location := by
      cases store.locate path <;> simp [Except.toOption]
    simp only [Apart, Option.mem_def, ne_eq, found]

variable {memory : Memory} {options : Options} {store later : Store} {job : Job} {world : World}
  {path : Path} {paths : List Path} {treated : Treated}

/-- A file reads the same in stores of one shape that have the same there. -/
theorem treat_congr (same : store.SameShape later)
    (kept : ∀ location, store.locate path = .ok location → later.node? location = store.node? location) :
    treat memory options later path = treat memory options store path := by
  unfold treat World.readText
  dsimp only
  rw [Store.readText_congr same kept]

/-- The same is to be expected of files that are the same in stores of one shape. -/
theorem foresee_congr (same : store.SameShape later)
    (kept : ∀ path ∈ paths, ∀ location, store.locate path = .ok location →
      later.node? location = store.node? location) :
    foresee memory options later paths = foresee memory options store paths := by
  induction paths with
  | nil => rfl
  | cons path paths ih =>
    rw [foresee, foresee, treat_congr same (kept path List.mem_cons_self),
      ih fun path member => kept path (List.mem_cons_of_mem _ member)]

/-! ## Files that are overwritten -/

/-- Whether a store is another one with the changed texts of some files in it. -/
structure Overwritten (store : Store) (files : List Treated) (later : Store) : Prop where
  /-- No file and no directory comes or goes. -/
  shape : store.SameShape later
  /-- No permission is given or taken. -/
  rights : later.readOnly = store.readOnly
  /-- The files whose text changes hold the formatted text. -/
  written : ∀ treated ∈ files, treated.changes = true → ∃ location stamp,
    store.locate treated.path = .ok location ∧ later.node? location = some (.file treated.text.toUTF8 stamp)
  /-- All else is as it was, stamps included. -/
  others : ∀ location, (∀ treated ∈ files, treated.changes = true → store.locate treated.path ≠ .ok location) →
    later.node? location = store.node? location

/-- Nothing changes for no files. -/
theorem Overwritten.nil (store : Store) : Overwritten store [] store :=
  ⟨fun _ => rfl, rfl, nofun, fun _ _ => rfl⟩

/-- Nothing changes for a file whose text does not. -/
theorem Overwritten.of_same (same : treated.changes = false) : Overwritten store [treated] store where
  shape _ := rfl
  rights := rfl
  written := by
    intro file member changed
    rw [List.mem_singleton.1 member, same] at changed
    cases changed
  others _ _ := rfl

/-- A file whose text changes is written where it is. -/
theorem Overwritten.putFile {location : Location} {content : ByteArray} {stamp : Nat}
    (located : store.locate treated.path = .ok location)
    (there : store.node? location = some (.file content stamp)) (changed : treated.changes = true) :
    Overwritten store [treated] (store.putFile location treated.text.toUTF8) where
  shape := Store.sameShape_putFile there _
  rights := Store.readOnly_putFile _ _ _
  written := by
    intro file member _
    rw [List.mem_singleton.1 member]
    exact ⟨location, _, located, Store.node?_putFile_self (by rw [there]; exact nofun) _⟩
  others := by
    intro elsewhere away
    refine Store.node?_putFile_of_file there _ ?_
    rintro rfl
    exact away treated List.mem_cons_self changed located

/-- A text is written where the path of a file leads, if there is permission. -/
theorem World.writeText_of_file {location : Location} {content : ByteArray} {stamp : Nat}
    (named : path.isNameable = true) (located : world.store.locate path = .ok location)
    (there : world.store.node? location = some (.file content stamp))
    (writable : location ∉ world.store.readOnly) (text : String) :
    world.writeText path text = ({ world with store := world.store.putFile location text.toUTF8 }, .ok ()) := by
  rw [writeText, named, Store.writeText_of_located located (by rw [there]; exact nofun) writable]
  rfl

/-- A text is not written to a file without permission. -/
theorem World.writeText_of_readOnly {location : Location} {content : ByteArray} {stamp : Nat}
    (named : path.isNameable = true) (located : world.store.locate path = .ok location)
    (there : world.store.node? location = some (.file content stamp))
    (barred : location ∈ world.store.readOnly) (text : String) :
    world.writeText path text = (world, .error (.file ⟨.denied, path⟩)) := by
  have place := Store.placeOf_of_located located (by rw [there]; exact nofun)
  have refused : world.store.writeText path text = .error ⟨.denied, path⟩ := by
    rw [Store.writeText, Store.write, place]
    dsimp only
    rw [if_pos (by simpa using barred)]
  rw [writeText, named, refused]
  rfl

/-- Whether a file keeps its text or may be written. -/
def Treated.isWritable (store : Store) (treated : Treated) : Bool :=
  !treated.changes || !(store.locate treated.path).toOption.any store.readOnly.contains

/-- A file whose text changes is writable if there is permission where its path leads. -/
theorem Treated.isWritable_of_located {location : Location} (changed : treated.changes = true)
    (located : store.locate treated.path = .ok location) :
    treated.isWritable store = true ↔ location ∉ store.readOnly := by
  simp [isWritable, changed, located, Except.toOption]

/-- What keeps a file from being written that is formatted. -/
def Treated.barrier (treated : Treated) : Obstacle :=
  ⟨.file ⟨.denied, treated.path⟩, some treated.source⟩

/-- What overwriting comes to where formatting comes to a forecast: files are written up to the first that is
not writable. -/
def Forecast.overwriting (store : Store) (forecast : Forecast) : Forecast :=
  match forecast.treated.dropWhile (Treated.isWritable store) with
  | [] => forecast
  | treated :: _ => ⟨forecast.treated.takeWhile (Treated.isWritable store), some treated.barrier⟩

/-- If every file is writable, overwriting comes to what formatting comes to. -/
theorem Forecast.overwriting_of_writable {forecast : Forecast}
    (writable : ∀ treated ∈ forecast.treated, treated.isWritable store = true) :
    forecast.overwriting store = forecast := by
  rw [overwriting, List.dropWhile_eq_nil_iff.2 writable]

/-- Only files that are formatted are overwritten. -/
theorem Forecast.treated_of_overwriting {forecast : Forecast}
    (member : treated ∈ (forecast.overwriting store).treated) : treated ∈ forecast.treated := by
  rw [overwriting] at member
  split at member
  next => exact member
  next => exact (List.takeWhile_prefix _).subset member

/-- A writable file is overwritten before the others. -/
theorem Forecast.overwriting_behind {forecast : Forecast} (writable : treated.isWritable store = true) :
    (forecast.behind treated).overwriting store = (forecast.overwriting store).behind treated := by
  rw [overwriting, overwriting, behind, List.dropWhile_cons_of_pos writable,
    List.takeWhile_cons_of_pos writable]
  cases forecast.treated.dropWhile (Treated.isWritable store) <;> rfl

/-- A file that is not writable ends overwriting. -/
theorem Forecast.overwriting_barred {forecast : Forecast} (barred : ¬treated.isWritable store = true) :
    (forecast.behind treated).overwriting store = ⟨[], some treated.barrier⟩ := by
  rw [overwriting, behind, List.dropWhile_cons_of_neg barred, List.takeWhile_cons_of_neg barred]

/-- In stores of one shape and with the same permissions overwriting comes to the same. -/
theorem Forecast.overwriting_congr (same : store.SameShape later) (rights : later.readOnly = store.readOnly)
    (forecast : Forecast) : forecast.overwriting later = forecast.overwriting store := by
  have alike : Treated.isWritable later = Treated.isWritable store := by
    funext treated
    rw [Treated.isWritable, Treated.isWritable, Store.locate_congr same, rights]
  rw [overwriting, overwriting, alike]

/-- Overwriting writes a writable file whose text changes and reports it. -/
theorem deliverFile_inPlace (writes : job.check = false) (inPlace : job.inPlace = true)
    (found : treat memory job.options world.store treated.path = .ok treated)
    (writable : treated.isWritable world.store = true) :
    ∃ later, deliverFile job treated.path treated.source treated.text (world.warn (job.dump treated.source)) =
        ({ world with store := later }.warn (treated.report job "Formatted "), .ok false) ∧
      Overwritten world.store [treated] later := by
  obtain ⟨-, named, read, -⟩ := treat_eq_ok found
  obtain ⟨location, content, stamp, located, there⟩ := Store.exists_file_of_readText read
  rw [deliverFile, if_neg (by rw [writes]; exact Bool.false_ne_true), if_pos inPlace, Treated.report]
  by_cases same : treated.text = treated.source
  · have unchanged : treated.changes = false := by simp [Treated.changes, same]
    refine ⟨world.store, ?_, .of_same unchanged⟩
    rw [if_pos same, unchanged, if_neg Bool.false_ne_true, String.append_empty]
  · have changed : treated.changes = true := by simp [Treated.changes, same]
    refine ⟨world.store.putFile location treated.text.toUTF8, ?_, .putFile located there changed⟩
    have permitted := (treated.isWritable_of_located changed located).1 writable
    rw [if_neg same, if_pos changed,
      @World.writeText_of_file (world.warn (job.dump treated.source)) _ _ _ _ named located there permitted]
    simp [World.warnLine, World.warn, String.append_assoc]

/-- Overwriting does not write a file that is not writable. -/
theorem deliverFile_barred (writes : job.check = false) (inPlace : job.inPlace = true)
    (found : treat memory job.options world.store treated.path = .ok treated)
    (barred : ¬treated.isWritable world.store = true) :
    deliverFile job treated.path treated.source treated.text (world.warn (job.dump treated.source)) =
      (world.warn (job.dump treated.source), .error (.file ⟨.denied, treated.path⟩)) := by
  obtain ⟨-, named, read, -⟩ := treat_eq_ok found
  obtain ⟨location, content, stamp, located, there⟩ := Store.exists_file_of_readText read
  have changed : treated.changes = true := by
    by_contra kept
    exact barred (by simp [Treated.isWritable, kept])
  have differs : ¬treated.text = treated.source := by simpa [Treated.changes] using changed
  have denied : location ∈ world.store.readOnly := by
    by_contra permitted
    exact barred ((treated.isWritable_of_located changed located).2 permitted)
  rw [deliverFile, if_neg (by rw [writes]; exact Bool.false_ne_true), if_pos inPlace, if_neg differs,
    @World.writeText_of_readOnly (world.warn (job.dump treated.source)) _ _ _ _ named located there denied]

/-- Files that are apart from a first one are changed after it. -/
theorem Overwritten.cons {files : List Treated} {middle : Store} (first : Overwritten store [treated] middle)
    (rest : Overwritten middle files later)
    (apart : ∀ file ∈ files, ∀ location, store.locate treated.path = .ok location →
      store.locate file.path ≠ .ok location) : Overwritten store (treated :: files) later where
  shape location := (first.shape location).trans (rest.shape location)
  rights := rest.rights.trans first.rights
  written := by
    intro file member changed
    rcases List.mem_cons.1 member with here | behind
    · subst here
      obtain ⟨location, stamp, located, there⟩ := first.written file List.mem_cons_self changed
      refine ⟨location, stamp, located, ?_⟩
      rw [rest.others, there]
      intro other among _
      rw [← Store.locate_congr first.shape]
      exact apart other among location located
    · obtain ⟨location, stamp, located, there⟩ := rest.written file behind changed
      exact ⟨location, stamp, by rw [Store.locate_congr first.shape, located], there⟩
  others := by
    intro location away
    rw [rest.others, first.others]
    · intro file member
      rw [List.mem_singleton.1 member]
      exact away treated List.mem_cons_self
    · intro file member changed
      rw [← Store.locate_congr first.shape]
      exact away file (List.mem_cons_of_mem _ member) changed

/-! ## Files in order -/

/-- Overwriting reports the files whose text changes, up to one that is not writable, and they are the only ones
that it changes. -/
theorem formatFiles_inPlace {forecast : Forecast} (writes : job.check = false) (inPlace : job.inPlace = true)
    (apart : Apart world.store paths)
    (ahead : forecast = (foresee memory job.options world.store paths).overwriting world.store) :
    ∃ later, formatFiles memory job paths world =
        ({ world with store := later }.warn (forecast.printed job "Formatted "), forecast.result false) ∧
      Overwritten world.store forecast.treated later := by
  induction paths generalizing world forecast with
  | nil =>
    subst ahead
    exact ⟨world.store, congrArg (·, Except.ok false) world.warn_empty.symm, .nil _⟩
  | cons path paths ih =>
    obtain ⟨fromFirst, amongOthers⟩ := List.pairwise_cons.1 apart
    cases found : treat memory job.options world.store path with
    | error obstacle =>
      have whole : forecast = foresee memory job.options world.store (path :: paths) := by
        rw [ahead, foresee_of_error found]
        exact Forecast.overwriting_of_writable nofun
      refine ⟨world.store, ?_, ?_⟩
      · rw [whole]
        exact formatFiles_of_error found _
      · rw [whole, foresee_of_error found]
        exact .nil _
    | ok treated =>
      obtain ⟨rfl, -⟩ := treat_eq_ok found
      have done := formatFile_eq memory job treated.path world
      rw [found] at done
      rw [foresee_of_ok found] at ahead
      by_cases writable : treated.isWritable world.store = true
      · rw [Forecast.overwriting_behind writable] at ahead
        obtain ⟨middle, delivered, first⟩ := deliverFile_inPlace writes inPlace found writable
        have stays : ∀ path ∈ paths, ∀ location, world.store.locate path = .ok location →
            middle.node? location = world.store.node? location := by
          intro path member location located
          refine first.others location fun file only _ here => ?_
          rw [List.mem_singleton.1 only] at here
          exact fromFirst path member location here located
        have still : Apart middle paths :=
          amongOthers.imp fun away location located => by
            rw [← Store.locate_congr first.shape] at located ⊢
            exact away location located
        have behind : (foresee memory job.options world.store paths).overwriting world.store =
            (foresee memory job.options middle paths).overwriting middle := by
          rw [foresee_congr first.shape stays, Forecast.overwriting_congr first.shape first.rights]
        obtain ⟨later, others, rest⟩ :=
          @ih ({ world with store := middle }.warn (treated.report job "Formatted ")) _ still rfl
        change formatFiles memory job paths ({ world with store := middle }.warn _) =
          (({ world with store := later }.warn (treated.report job "Formatted ")).warn
              (((foresee memory job.options middle paths).overwriting middle).printed job "Formatted "),
            ((foresee memory job.options middle paths).overwriting middle).result false) at others
        change Overwritten middle ((foresee memory job.options middle paths).overwriting middle).treated later
          at rest
        rw [← behind] at others rest
        subst ahead
        refine ⟨later, ?_, ?_⟩
        · rw [formatFiles_cons (done.trans delivered), others]
          dsimp only
          rw [Forecast.result_or, Forecast.printed_behind, World.warn_warn]
          rfl
        · exact first.cons rest fun file member location located =>
            have among := treat_of_mem_foresee (Forecast.treated_of_overwriting member)
            fromFirst file.path among.1 location located
      · rw [Forecast.overwriting_barred writable] at ahead
        subst ahead
        refine ⟨world.store, ?_, .nil _⟩
        rw [formatFiles, done.trans (deliverFile_barred writes inPlace found writable)]
        simp [Forecast.printed, Forecast.result, Treated.barrier]

/-! ## Commands -/

/-- A command for files does not ask for the standard input. -/
theorem perform_of_inputs (idle : job.watch = false) (given : job.inputs ≠ []) (input : String)
    (events : List Event) (world : World) :
    perform memory job input events world = settle (formatFiles memory job job.inputs world) := by
  unfold perform
  rw [idle]
  cases inputs : job.inputs with
  | nil => exact absurd inputs given
  | cons path paths => rfl

/-- A command with the arguments of a job is accepted. -/
theorem prepare_of_follows {platform : Platform} {texts : List String} {arguments : Arguments}
    (read : parseArguments platform texts = .ok arguments) (follows : job.Follows platform store arguments) :
    prepare platform texts store = .ok job := by
  rw [prepare, read]
  dsimp only
  rw [Job.ofArguments_eq_ok_iff.2 follows]

/-- Where a check of files is accepted that has no output file, overwriting them is accepted. -/
theorem Job.Follows.overwriting {platform : Platform} {arguments : Arguments}
    (follows : job.Follows platform store { arguments with check := true, inPlace := false })
    (noOutput : nonEmpty arguments.output = none) (given : job.inputs ≠ []) :
    { job with check := false, inPlace := true }.Follows platform store
      { arguments with check := false, inPlace := true } := by
  obtain ⟨agreed, options, inputs, output, -, -, watch, debug⟩ := follows
  refine ⟨?_, options, inputs, output, rfl, rfl, watch, debug⟩
  obtain ⟨unmixed, -, -, one⟩ := conflict?_eq_none_iff.1 agreed
  refine conflict?_eq_none_iff.2 ⟨unmixed, fun named => absurd noOutput named, fun _ => ⟨?_, noOutput⟩, one⟩
  rw [ne_eq, List.length_eq_zero_iff]
  exact fun missing => given (inputs.trans missing)

/-- Two commands for the same files, one to check and one to overwrite. What becomes of the files can be told
from the files as they are: the first ones are formatted, up to the first that cannot be, and each has its own
text formatted. The check reports the files whose text changes, leaves all files, and ends with 1 if there is
such a file. Overwriting reports the same files, writes them and nothing else, and ends with 0, if there is
permission to write every file whose text changes; otherwise it does so up to the first such file, tells that it
cannot be written, and ends with 2. If there is a file that cannot be used, both tell so and end with 2. -/
theorem check_predicts_overwriting {platform : Platform} {checking overwriting : List String}
    {arguments : Arguments} {store : Store} {job : Job}
    (first : parseArguments platform checking = .ok { arguments with check := true, inPlace := false })
    (second : parseArguments platform overwriting = .ok { arguments with check := false, inPlace := true })
    (accepted : prepare platform checking store = .ok job) (idle : arguments.watch = false)
    (noOutput : nonEmpty arguments.output = none) (given : job.inputs ≠ []) (apart : Apart store job.inputs)
    (input : String) (events : List Event) :
    let forecast := foresee platform.memory job.options store job.inputs
    let written := forecast.overwriting store
    (∃ untreated, job.inputs = forecast.treated.map Treated.path ++ untreated ∧
        match forecast.obstacle with
        | none => untreated = []
        | some obstacle =>
          ∃ path rest, untreated = path :: rest ∧
            treat platform.memory job.options store path = .error obstacle) ∧
      (∀ treated ∈ forecast.treated,
        store.readText treated.path = .ok treated.source ∧ treated.text = format job.options treated.source) ∧
      run platform checking input events store =
        { world := { store := store, stderr := forecast.printed job "would reformat " ++ forecast.closing }
          ending := forecast.ending (if forecast.changes then 1 else 0) } ∧
      ((∀ treated ∈ forecast.treated, treated.isWritable store = true) → written = forecast) ∧
      ∃ later, run platform overwriting input events store =
          { world := { store := later, stderr := written.printed job "Formatted " ++ written.closing }
            ending := written.ending 0 } ∧
        Overwritten store written.treated later := by
  intro forecast written
  obtain ⟨arguments', read, follows⟩ := exists_arguments accepted
  rw [first] at read
  cases read
  have unwatched : job.watch = false := follows.watch.trans idle
  refine ⟨foresee_paths _ _ _ _, ?_, ?_, Forecast.overwriting_of_writable, ?_⟩
  · intro treated member
    obtain ⟨-, -, held, formatted⟩ := treat_eq_ok (treat_of_mem_foresee member).2
    exact ⟨held, formatted⟩
  · rw [run_eq_perform accepted, perform_of_inputs unwatched given, formatFiles_check follows.check,
      settle_result]
    simp only [World.warn, String.empty_append]
    rfl
  · have taken := prepare_of_follows second (follows.overwriting noOutput given)
    obtain ⟨later, done, overwritten⟩ :=
      @formatFiles_inPlace platform.memory { job with check := false, inPlace := true } { store := store }
        job.inputs written rfl rfl apart rfl
    refine ⟨later, ?_, overwritten⟩
    have performed := @perform_of_inputs platform.memory { job with check := false, inPlace := true } unwatched
      given input events { store := store }
    rw [run_eq_perform taken, performed, done, settle_result]
    simp only [World.warn, String.empty_append]
    rfl

/-- Of three files the first changes, the second has only other line ends and may not be written, and the third
is not there. -/
theorem check_predicts_overwriting_of_three :
    let platform : Platform := .boundless id
    let store : Store := {
      nodes := [(⟨.above 0, ["a"]⟩, .file "select a, b".toUTF8 1),
        (⟨.above 0, ["b"]⟩, .file "SELECT\r\n  a,\r\n  b\r\n".toUTF8 1)]
      readOnly := [⟨.above 0, ["b"]⟩] }
    let missing := "error: [Errno 2] No such file or directory: 'c'\n"
    run platform ["a", "b", "c", "--check"] "" [] store =
        { world := { store := store, stderr := "would reformat a\n" ++ missing }, ending := .exit 2 } ∧
      ∃ later stamp, run platform ["a", "b", "c", "-i"] "" [] store =
          { world := { store := later, stderr := "Formatted a\n" ++ missing }, ending := .exit 2 } ∧
        later.node? ⟨.above 0, ["a"]⟩ = some (.file "SELECT\n  a,\n  b\n".toUTF8 stamp) ∧
        later.node? ⟨.above 0, ["b"]⟩ = store.node? ⟨.above 0, ["b"]⟩ := by
  intro platform store missing
  let job : Job := ⟨["a", "b", "c"].map Path.ofText, none, false, true, false, false, {}⟩
  have accepted : prepare platform ["a", "b", "c", "--check"] store = .ok job :=
    prepare_eq_ok (by decide +kernel)
  obtain ⟨-, -, checked, all, later, overwritten, files⟩ := @check_predicts_overwriting platform
    ["a", "b", "c", "--check"] ["a", "b", "c", "-i"] { files := ["a", "b", "c"] } store job
    (by with_unfolding_all rfl) (by with_unfolding_all rfl) accepted rfl rfl (List.cons_ne_nil _ _)
    (by decide +kernel) "" []
  have expected :
      let forecast := foresee platform.memory job.options store job.inputs
      forecast.treated =
          [⟨.ofText "a", "select a, b", "SELECT\n  a,\n  b\n"⟩,
            ⟨.ofText "b", "SELECT\n  a,\n  b\n", "SELECT\n  a,\n  b\n"⟩] ∧
        forecast.printed job "would reformat " ++ forecast.closing = "would reformat a\n" ++ missing ∧
        forecast.printed job "Formatted " ++ forecast.closing = "Formatted a\n" ++ missing ∧
        forecast.ending (if forecast.changes then 1 else 0) = .exit 2 ∧ forecast.ending 0 = .exit 2 ∧
        (store.locate (.ofText "a")).toOption = some ⟨.above 0, ["a"]⟩ ∧
        ∀ treated ∈ forecast.treated, treated.isWritable store = true := by
    decide +kernel
  obtain ⟨treated, reformats, formatted, checkEnding, ending, place, writable⟩ := expected
  rw [all writable] at overwritten files
  rw [treated] at files
  rw [reformats, checkEnding] at checked
  rw [formatted, ending] at overwritten
  obtain ⟨location, stamp, located, there⟩ := files.written _ List.mem_cons_self (by decide)
  rw [located] at place
  cases place
  refine ⟨checked, later, stamp, overwritten, there, files.others _ ?_⟩
  intro file member changed leads
  rcases List.mem_cons.1 member with here | behind
  · subst here
    rw [located] at leads
    exact absurd (Except.ok.inj leads) (by decide)
  · rw [List.mem_singleton.1 behind] at changed
    revert changed
    decide

end SqlLayout.Command
