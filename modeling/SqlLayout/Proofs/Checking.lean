import Mathlib.Data.List.TakeWhile
import SqlLayout.Proofs.Forecast
import SqlLayout.Proofs.Looks

/-!
# Commands that only check

A check reads files and prints, and writes nothing (`store_perform_check`). A watch does not ask whether it is
one: it writes as it would without the option (`perform_watch_check`). So `--check` keeps its word exactly in
the commands that do not watch a file (`check_writes_nothing`).
-/

namespace SqlLayout.Command

variable {platform : Platform} {memory : Memory}

/-! ## Arguments that ask for a check -/

/-- The word that `--check` is read as. -/
def checkWord : Word := .option .check "--check" none

/-- An option that is set leaves a check asked for. -/
theorem check_of_apply {arguments result : Arguments} {flag : Flag} {value : String}
    (asked : arguments.check = true ∨ flag = .check)
    (applied : apply platform arguments flag value = .ok result) : result.check = true := by
  unfold apply at applied
  split at applied
  next => cases applied
  next setting _ =>
    cases flag with
    | help => cases applied
    | check => cases applied; rfl
    | _ =>
      cases applied
      exact asked.resolve_right nofun

/-- The first option is set before the others. -/
theorem applyAll_cons (platform : Platform) (arguments : Arguments) (flag : Flag) (value : String)
    (flags : List (Flag × String)) :
    applyAll platform arguments ((flag, value) :: flags) =
      match apply platform arguments flag value with
      | .error stop => .error stop
      | .ok changed => applyAll platform changed flags := by
  rw [applyAll, List.foldlM_cons]
  change (apply platform arguments flag value >>= fun changed => applyAll platform changed flags) = _
  cases apply platform arguments flag value <;> rfl

/-- Options that are set leave a check asked for. -/
theorem check_of_applyAll {arguments result : Arguments} {flags : List (Flag × String)}
    (asked : arguments.check = true ∨ ∃ value, (.check, value) ∈ flags)
    (applied : applyAll platform arguments flags = .ok result) : result.check = true := by
  induction flags generalizing arguments with
  | nil =>
    cases applied
    exact asked.resolve_right nofun
  | cons entry flags ih =>
    obtain ⟨flag, value⟩ := entry
    rw [applyAll_cons] at applied
    split at applied
    next => cases applied
    next changed first =>
      refine ih ?_ applied
      rcases asked with already | ⟨found, member⟩
      · exact .inl (check_of_apply (.inl already) first)
      · rcases List.mem_cons.1 member with here | later
        · cases here
          exact .inl (check_of_apply (.inr rfl) first)
        · exact .inr ⟨found, later⟩

/-- What is behind an option and its value has every word but a plain one. -/
theorem mem_of_optionValues {flag : Flag} {spelling : String} {value : Option String} {rest after : List Word}
    {flags : List (Flag × String)} (read : optionValues flag spelling value rest = .ok (flags, after))
    {word : Word} (option : word.plainText?.isSome = false) (member : word ∈ rest) : word ∈ after := by
  unfold optionValues at read
  split at read
  next => cases read
  next others last value _ =>
    split at read
    next => cases read
    next found behind valued =>
      cases read
      unfold valueFor at valued
      split at valued
      next =>
        split at valued
        next => cases valued; exact member
        next plain =>
          cases valued
          refine (List.mem_cons.1 member).resolve_left ?_
          rintro rfl
          cases option
        next => cases valued
      next => cases valued; exact member

/-- What is behind plain words has every other word. -/
theorem mem_dropWhile_of_option {word : Word} {words : List Word} (option : word.plainText?.isSome = false)
    (member : word ∈ words) : word ∈ words.dropWhile (·.plainText?.isSome) := by
  rw [← List.takeWhile_append_dropWhile (p := (·.plainText?.isSome)) (l := words)] at member
  refine (List.mem_append.1 member).resolve_left fun plain => ?_
  have given := List.mem_takeWhile_imp plain
  rw [option] at given
  cases given

/-- A check that is asked for, before or among the words that are left, is asked for in the end. -/
theorem check_of_readWords {progress result : Progress} {words : List Word}
    (asked : progress.arguments.check = true ∨ checkWord ∈ words)
    (read : progress.readWords platform words = .ok result) : result.arguments.check = true := by
  fun_induction Progress.readWords with
  | case1 progress =>
    cases read
    exact asked.resolve_right nofun
  | case2 progress text rest ih =>
    refine ih (asked.imp_right fun member => ?_) read
    exact (List.mem_cons.1 member).resolve_left nofun
  | case3 => cases read
  | case4 => cases read
  | case5 progress flag spelling value rest flags after values arguments applied ih =>
    refine ih ?_ read
    rcases asked with already | member
    · exact .inl (check_of_applyAll (.inl already) applied)
    · rcases List.mem_cons.1 member with here | later
      · cases here
        cases values
        exact .inl (check_of_applyAll (.inr ⟨"", List.mem_cons_self⟩) applied)
      · exact .inr (mem_of_optionValues values rfl later)
  | case6 progress word rest known unspelled others ih =>
    refine ih ?_ read
    rcases asked with already | member
    · refine .inl ?_
      rw [Progress.takePlain]
      split <;> exact already
    · refine .inr (mem_dropWhile_of_option rfl ((List.mem_cons.1 member).resolve_left ?_))
      rintro rfl
      exact unspelled _ _ _ rfl

/-- An argument `--check` before the divider is among the words. -/
theorem checkWord_mem {texts : List String} {words : List Word} (read : wordsOf texts = .ok words)
    (member : "--check" ∈ texts.takeWhile (· ≠ "--")) : checkWord ∈ words := by
  fun_induction wordsOf generalizing words with
  | case1 => cases member
  | case2 rest => cases member
  | case3 text rest before ih =>
    rw [List.takeWhile_cons_of_pos (by simpa using before)] at member
    cases first : wordOf text with
    | error cause =>
      rw [first] at read
      cases read
    | ok word =>
      cases others : wordsOf rest with
      | error cause =>
        rw [first, others] at read
        cases read
      | ok later =>
        rw [first, others] at read
        cases read
        rcases List.mem_cons.1 member with here | behind
        · subst here
          cases first
          exact List.mem_cons_self
        · exact List.mem_cons_of_mem _ (ih others behind)

/-- Arguments with `--check` before the divider ask for a check. -/
theorem check_of_parseArguments {texts : List String} {arguments : Arguments}
    (read : parseArguments platform texts = .ok arguments) (member : "--check" ∈ texts.takeWhile (· ≠ "--")) :
    arguments.check = true := by
  unfold parseArguments at read
  split at read
  next => cases read
  next words spelled =>
    split at read
    next => cases read
    next progress done =>
      split at read
      next =>
        cases read
        exact check_of_readWords (.inr (checkWord_mem spelled member)) done
      next => cases read

/-- Arguments go together if no rule for two of them is broken. -/
theorem conflict?_eq_none_iff {arguments : Arguments} :
    conflict? arguments = none ↔
      ((inputPaths arguments).length = arguments.files.length ∨ (inputPaths arguments).length = 0) ∧
        (nonEmpty arguments.output ≠ none → (inputPaths arguments).length ≤ 1) ∧
        (arguments.inPlace = true → (inputPaths arguments).length ≠ 0 ∧ nonEmpty arguments.output = none) ∧
        (arguments.watch = true → (inputPaths arguments).length = 1) := by
  unfold conflict?
  generalize (inputPaths arguments).length = count
  cases nonEmpty arguments.output with
  | none => simp; grind
  | some => simp; grind

/-- Whether a job is what arguments that go together ask for. -/
structure Job.Follows (platform : Platform) (store : Store) (arguments : Arguments) (job : Job) : Prop where
  /-- The arguments go together. -/
  agreed : conflict? arguments = none
  /-- The options are settled. -/
  options : jobOptions platform store arguments = .ok job.options
  /-- The files are those of the arguments. -/
  inputs : job.inputs = inputPaths arguments
  /-- The output file is the one that is named. -/
  output : job.output = (nonEmpty arguments.output).map Path.ofText
  /-- Files are overwritten if the arguments say so. -/
  inPlace : job.inPlace = arguments.inPlace
  /-- Nothing is written if the arguments say so. -/
  check : job.check = arguments.check
  /-- The file is watched if the arguments say so. -/
  watch : job.watch = arguments.watch
  /-- Tokens are shown if the arguments say so. -/
  debug : job.debug = arguments.debug

/-- Arguments have the job that they ask for. -/
theorem Job.ofArguments_eq_ok_iff {store : Store} {arguments : Arguments} {job : Job} :
    Job.ofArguments platform store arguments = .ok job ↔ job.Follows platform store arguments := by
  constructor
  · intro accepted
    unfold Job.ofArguments at accepted
    split at accepted
    next => cases accepted
    next agreed =>
      split at accepted
      next => cases accepted
      next options settled =>
        cases accepted
        exact ⟨agreed, settled, rfl, rfl, rfl, rfl, rfl, rfl⟩
  · rintro ⟨agreed, settled, inputs, output, inPlace, check, watch, debug⟩
    rw [Job.ofArguments, agreed]
    simp only [settled, ← inputs, ← output, ← inPlace, ← check, ← watch, ← debug]

/-- A command line that is accepted has arguments, and they have a job. -/
theorem exists_arguments {texts : List String} {store : Store} {job : Job}
    (accepted : prepare platform texts store = .ok job) :
    ∃ arguments, parseArguments platform texts = .ok arguments ∧ job.Follows platform store arguments := by
  unfold prepare at accepted
  split at accepted
  next => cases accepted
  next => cases accepted
  next arguments read =>
    split at accepted
    next => cases accepted
    next found =>
      cases accepted
      exact ⟨arguments, read, Job.ofArguments_eq_ok_iff.1 found⟩

/-- A command line is accepted if that leaves a job. -/
theorem prepare_eq_ok {texts : List String} {store : Store} {job : Job}
    (settled : (prepare platform texts store).toOption = some job) :
    prepare platform texts store = .ok job := by
  cases found : prepare platform texts store with
  | error outcome =>
    rw [found] at settled
    cases settled
  | ok other =>
    rw [found] at settled
    exact congrArg Except.ok (Option.some.inj settled)

/-- A command line with arguments that have a job does it. -/
theorem run_eq_perform {texts : List String} {store : Store} {job : Job}
    (accepted : prepare platform texts store = .ok job) (input : String) (events : List Event) :
    run platform texts input events store = perform platform.memory job input events { store := store } := by
  rw [run, accepted]

/-! ## What a check leaves -/

section Frame

variable {job : Job} (checks : job.check = true)

include checks

/-- A check writes nothing for files, however many of them it has come to. -/
theorem store_formatFiles_check (paths : List Path) (world : World) :
    (formatFiles memory job paths world).1.store = world.store := by
  rw [formatFiles_check checks]
  rfl

/-- A check writes nothing for the standard input. -/
theorem store_formatInput_check (input : String) (world : World) :
    (formatInput memory job input world).1.store = world.store := by
  rw [formatInput, World.formatSource_eq]
  cases format? memory job.options input with
  | error fault => rfl
  | ok formatted =>
    dsimp only
    rw [if_pos checks]
    split <;> rfl

end Frame

/-- What is told about how a command ends changes no file. -/
theorem store_settle (attempt : Attempt Bool) : (settle attempt).world.store = attempt.1.store := by
  obtain ⟨world, result⟩ := attempt
  match result with
  | .ok changed => rfl
  | .error (.file error) => rfl
  | .error (.breakdown cause) => rfl

/-- A check that does not watch a file writes nothing. -/
theorem store_perform_check {job : Job} (checks : job.check = true) (idle : job.watch = false) (input : String)
    (events : List Event) (world : World) :
    (perform memory job input events world).world.store = world.store := by
  unfold perform
  split
  next watches _ =>
    rw [idle] at watches
    cases watches
  next => rw [store_settle, store_formatInput_check checks]
  next => rw [store_settle, store_formatFiles_check checks]

/-! ## What a watch does -/

/-- A watched command has one file. -/
theorem Job.Follows.exists_input {store : Store} {arguments : Arguments} {job : Job}
    (follows : job.Follows platform store arguments) (watches : job.watch = true) :
    ∃ path, job.inputs = [path] := by
  rw [follows.inputs, ← List.length_eq_one_iff]
  exact (conflict?_eq_none_iff.1 follows.agreed).2.2.2 (follows.watch.symm.trans watches)

/-- A command that watches a file does nothing else. -/
theorem perform_of_watch {job : Job} {path : Path} (watches : job.watch = true) (one : job.inputs = [path])
    (input : String) (events : List Event) (world : World) :
    perform memory job input events world =
      { world := (Watch.start memory job path events world).world
        ending := ((Watch.start memory job path events world).breakdown.map Ending.breakdown).getD (.exit 0)
        snapshots := (Watch.start memory job path events world).snapshots } := by
  unfold perform
  rw [watches, one]

/-- A watch sees and leaves the same whether a check is asked for or not. -/
theorem Watch.run_check (memory : Memory) (job : Job) (check : Bool) (path : Path) (events : List Event)
    (watch : Watch) :
    Watch.run memory { job with check := check } path events watch =
      Watch.run memory job path events watch := by
  have same (watch : Watch) :
      watch.look memory { job with check := check } path = watch.look memory job path := rfl
  induction events generalizing watch with
  | nil => rw [Watch.run_nil, Watch.run_nil, same]
  | cons event events ih =>
    rw [Watch.run_cons, Watch.run_cons, same]
    simp only [ih]

/-- A watch does the same whether a check is asked for or not. -/
theorem perform_watch_check {job : Job} {path : Path} (watches : job.watch = true) (one : job.inputs = [path])
    (check : Bool) (input : String) (events : List Event) (world : World) :
    perform memory { job with check := check } input events world = perform memory job input events world := by
  have same : Watch.start memory { job with check := check } path events world =
      Watch.start memory job path events world := Watch.run_check memory job check path events _
  rw [perform_of_watch watches one, ← same]
  exact @perform_of_watch memory { job with check := check } path watches one input events world

/-- A command that is accepted, whatever its other arguments are. It is a check if `--check` stands before
the divider. A check that does not watch a file has all files as they were in the end, and whenever it has
come to a file. A check that watches a file does what the command does that is none. -/
theorem check_writes_nothing {platform : Platform} {texts : List String} {store : Store} {job : Job}
    (accepted : prepare platform texts store = .ok job) (input : String) (events : List Event) :
    ("--check" ∈ texts.takeWhile (· ≠ "--") → job.check = true) ∧
    (job.check = true → job.watch = false →
      (run platform texts input events store).world.store = store ∧
        ∀ done, done <+: job.inputs →
          (formatFiles platform.memory job done { store := store }).1.store = store) ∧
    (job.check = true → job.watch = true →
      run platform texts input events store =
        perform platform.memory { job with check := false } input events { store := store }) := by
  obtain ⟨arguments, read, follows⟩ := exists_arguments accepted
  rw [run_eq_perform accepted]
  refine ⟨?_, ?_, ?_⟩
  · intro member
    rw [follows.check]
    exact check_of_parseArguments read member
  · intro checks idle
    exact ⟨store_perform_check checks idle _ _ _, fun done _ => store_formatFiles_check checks done _⟩
  · intro checks watches
    obtain ⟨path, one⟩ := follows.exists_input watches
    exact (perform_watch_check watches one false _ _ _).symm

/-- A check with an output file leaves both files as they were, and a watch with `--check` does not. -/
theorem check_writes_nothing_of_output :
    let platform : Platform := .boundless id
    let store : Store := { nodes := [
      (⟨.above 0, ["query"]⟩, .file "select a, b".toUTF8 1), (⟨.above 0, ["text"]⟩, .file "x".toUTF8 1)] }
    (run platform ["query", "--check", "-o", "text"] "" [] store).world.store = store ∧
      ((run platform ["query", "--check", "--watch"] "" [] store).world.store.readText
        (.ofText "query")).toOption = some "SELECT\n  a,\n  b\n" := by
  intro platform store
  refine ⟨?_, by decide +kernel⟩
  let job : Job := ⟨[.ofText "query"], some (.ofText "text"), false, true, false, false, {}⟩
  have accepted : prepare platform ["query", "--check", "-o", "text"] store = .ok job :=
    prepare_eq_ok (by decide +kernel)
  exact ((check_writes_nothing accepted "" []).2.1 rfl rfl).1

end SqlLayout.Command
