import Mathlib.Data.List.Forall2
import SqlLayout.Proofs.Looks
import SqlLayout.Proofs.Overwriting

/-!
# A watch formats a file once for every change

Every write gives a file a stamp that it never had, and a watch takes the stamp of its own write as seen. So
before a look the file is not there, or it was written or touched since the last look that saw it, or it is as
that look left it, and the events alone tell which (`Standing.course`). A look formats the file in the second
case and does nothing in the others, and what is known of the file holds on after a look (`Agrees.looked`) and
after an event (`Agrees.resume`). So a watch reports once for every change that it comes to see
(`watch_formats_changes`).
-/

namespace SqlLayout.Command

/-! ## What events make of a file -/

/-- How a file stands with a watch before a look. -/
inductive Standing where
  /-- It is not there. -/
  | missing
  /-- It was written or touched since the last look that saw it, or no look saw it. -/
  | changed
  /-- It is as the last look that saw it left it. -/
  | seen
deriving DecidableEq

namespace Standing

/-- How a file stands before the first look. -/
def initial (store : Store) (location : Location) : Standing :=
  if (store.node? location).isSome then .changed else .missing

/-- How a file stands after a look. -/
def looked : Standing → Standing
  | .changed => .seen
  | standing => standing

/-- How a file stands after something happened to it. -/
def after (standing : Standing) : Event → Standing
  | .write .. => .changed
  | .touch _ => if standing = .missing then .missing else .changed
  | .delete _ => .missing
  | .idle => standing

/-- How a file stands before each look. -/
def course (standing : Standing) : List Event → List Standing
  | [] => [standing]
  | event :: rest => standing :: (standing.looked.after event).course rest

end Standing

/-- Whether an event is nothing or happens to the file under a path, and writes UTF-8 if it writes. -/
def Event.Concerns (path : Path) : Event → Prop
  | .write written content => written = path ∧ (String.fromUTF8? content).isSome = true
  | .touch touched => touched = path
  | .delete deleted => deleted = path
  | .idle => True

/-- Whether an event concerns a file can be decided. -/
instance (path : Path) (event : Event) : Decidable (event.Concerns path) :=
  match event with
  | .write written content =>
    inferInstanceAs (Decidable (written = path ∧ (String.fromUTF8? content).isSome = true))
  | .touch touched => inferInstanceAs (Decidable (touched = path))
  | .delete deleted => inferInstanceAs (Decidable (deleted = path))
  | .idle => inferInstanceAs (Decidable True)

/-- Whether a file can be watched: its path leads to a place for a regular file, and a file that is there holds
UTF-8 and has a stamp. -/
structure Watchable (store : Store) (path : Path) (location : Location) : Prop where
  /-- The system can be asked for the file. -/
  named : path.isNameable = true
  /-- The path leads to the location. -/
  located : store.locate path = .ok location
  /-- The location is not an anchor. -/
  below : location.names ≠ []
  /-- The stamps that are given are not zero. -/
  started : 0 < store.clock
  /-- What is there is a file of UTF-8 bytes with a stamp that was given. -/
  regular : ∀ node, store.node? location = some node → ∃ content stamp,
    node = .file content stamp ∧ (String.fromUTF8? content).isSome = true ∧ 0 < stamp ∧ stamp < store.clock

/-! ## What a look does -/

/-- What becomes of a file whose text is laid out, and what is printed for it. It is reported once, the text
that is laid out is written if it differs, and nothing else changes; if it differs where there is no permission
to write, that is told instead. -/
def Delivered (path : Path) (location : Location) (source text : String) (before after : World) : Prop :=
  if text ≠ source ∧ location ∈ before.store.readOnly then
    after.store = before.store ∧
      after.stderr = before.stderr ++ "error: " ++ FileError.message ⟨.denied, path⟩ ++ "\n"
  else
    Overwritten before.store [⟨path, source, text⟩] after.store ∧
      after.stderr = before.stderr ++ "Formatted " ++ path.shown ++ "\n"

/-- Whether a look does what the standing of the file asks for. It does nothing for a file that is missing or
seen, and delivers one that changed; if the layout cannot be written, it breaks down and changes nothing. -/
def Look.Fits (memory : Memory) (job : Job) (path : Path) (location : Location) (look : Look) : Standing → Prop
  | .missing =>
    look.before.world.store.node? location = none ∧ look.after = look.before ∧ look.breakdown = none
  | .seen =>
    (∃ content, look.before.world.store.node? location = some (.file content look.before.seen)) ∧
      look.after = look.before ∧ look.breakdown = none
  | .changed =>
    ∃ source, look.before.world.store.readText path = .ok source ∧
      look.after.world.stdout = look.before.world.stdout ∧
      match format? memory job.options source with
      | .error fault =>
        look.breakdown = some (.unwritable fault) ∧ look.after.world.store = look.before.world.store ∧
          look.after.world.stderr = look.before.world.stderr ++ job.dump source
      | .ok text =>
        look.breakdown = none ∧
          Delivered path location source text (look.before.world.warn (job.dump source)) look.after.world

/-- What is known of a watch and its file, where some locations are barred from being written to. -/
structure Agrees (barred : List Location) (path : Path) (location : Location) (watch : Watch)
    (standing : Standing) : Prop where
  /-- No permission was given or taken. -/
  rights : watch.world.store.readOnly = barred
  /-- The path leads to the location. -/
  located : watch.world.store.locate path = .ok location
  /-- The location is not an anchor. -/
  below : location.names ≠ []
  /-- The next stamp is not the one that was seen last. -/
  unseen : watch.seen < watch.world.store.clock
  /-- A missing file is not there, and the stamp of any other tells whether it was seen. -/
  there : match standing with
    | .missing => watch.world.store.node? location = none
    | .changed => ∃ content stamp, watch.world.store.node? location = some (.file content stamp) ∧
        (String.fromUTF8? content).isSome = true ∧ stamp ≠ watch.seen ∧ stamp < watch.world.store.clock
    | .seen => ∃ content, watch.world.store.node? location = some (.file content watch.seen) ∧
        (String.fromUTF8? content).isSome = true

namespace Agrees

variable {memory : Memory} {job : Job} {barred : List Location} {path : Path} {location : Location}
  {watch : Watch} {standing : Standing} {event : Event} {events : List Event}

/-- No directory is where the file is. -/
theorem free (agrees : Agrees barred path location watch standing) (stamp : Nat) :
    watch.world.store.node? location ≠ some (.directory stamp) := by
  have there := agrees.there
  intro directory
  rw [directory] at there
  cases standing with
  | missing => cases there
  | changed =>
    obtain ⟨_, _, other, -⟩ := there
    cases other
  | seen =>
    obtain ⟨_, other, -⟩ := there
    cases other

/-- What is known of a watch is known of another with the same files that saw the same stamp. -/
theorem congr {other : Watch} (agrees : Agrees barred path location watch standing)
    (store : other.world.store = watch.world.store) (seen : other.seen = watch.seen) :
    Agrees barred path location other standing := by
  refine ⟨?_, ?_, agrees.below, ?_, ?_⟩
  · rw [store, agrees.rights]
  · rw [store, agrees.located]
  · rw [store, seen]
    exact agrees.unseen
  · rw [store, seen]
    exact agrees.there

/-- A file that is written has a stamp that was not seen. -/
theorem written (agrees : Agrees barred path location watch standing) {content : ByteArray}
    (decoded : (String.fromUTF8? content).isSome = true) :
    Agrees barred path location (watch.resume (.write path content)) .changed := by
  have added := Store.addFile_of_located agrees.located agrees.free content
  have later := Store.clock_lt_putFile watch.world.store location content
  rw [Watch.resume, Event.apply, added]
  refine ⟨(Store.readOnly_putFile _ _ _).trans agrees.rights, ?_, agrees.below,
    Nat.lt_trans agrees.unseen later, content, watch.world.store.clock, ?_, decoded,
    (Nat.ne_of_lt agrees.unseen).symm, later⟩
  · refine Store.locate_of_directories ?_ agrees.located
    exact fun _ directory =>
      Store.hasDirectory_putFile (fun ⟨stamp, here⟩ => agrees.free stamp here) _ directory
  · exact Store.node?_putFile_self agrees.free content

/-- A file that is deleted is missing. -/
theorem deleted (agrees : Agrees barred path location watch standing) :
    Agrees barred path location (watch.resume (.delete path)) .missing := by
  obtain ⟨gone, kept, later, rights⟩ := Store.delete_of_located agrees.located agrees.free agrees.below
  exact ⟨rights.trans agrees.rights, Store.locate_of_directories kept agrees.located, agrees.below,
    Nat.lt_of_lt_of_le agrees.unseen later, gone⟩

/-- A file that is touched has a stamp that was not seen. -/
theorem touched (agrees : Agrees barred path location watch standing) {content : ByteArray} {stamp : Nat}
    (there : watch.world.store.node? location = some (.file content stamp))
    (decoded : (String.fromUTF8? content).isSome = true) :
    Agrees barred path location (watch.resume (.touch path)) .changed := by
  have later := Store.clock_touchAt there
  rw [Watch.resume, Event.apply, Store.touch_of_located agrees.located]
  refine ⟨(Store.readOnly_touchAt _ _).trans agrees.rights, ?_, agrees.below, ?_, content,
    watch.world.store.clock, ?_, decoded, (Nat.ne_of_lt agrees.unseen).symm, ?_⟩
  · refine Store.locate_of_directories ?_ agrees.located
    exact fun _ directory => Store.hasDirectory_touchAt _ _ directory
  · exact Nat.lt_trans agrees.unseen (by rw [later]; exact Nat.lt_succ_self _)
  · dsimp only
    rw [Store.node?_touchAt_self, there]
    rfl
  · dsimp only
    rw [later]
    exact Nat.lt_succ_self _

/-- An event leaves the file as it says. -/
theorem resume (agrees : Agrees barred path location watch standing) (concerns : event.Concerns path) :
    Agrees barred path location (watch.resume event) (standing.after event) := by
  cases event with
  | idle => exact agrees.congr rfl rfl
  | write target content =>
    obtain ⟨rfl, decoded⟩ := concerns
    exact agrees.written decoded
  | delete target =>
    obtain rfl : target = path := concerns
    exact agrees.deleted
  | touch target =>
    obtain rfl : target = path := concerns
    have there := agrees.there
    cases standing with
    | missing =>
      have same : watch.world.store.touch target = watch.world.store := by
        rw [Store.touch_of_located agrees.located, Store.touchAt, there]
      rw [Watch.resume, Event.apply, same]
      exact agrees.congr rfl rfl
    | changed =>
      obtain ⟨content, stamp, there, decoded, -⟩ := there
      exact agrees.touched there decoded
    | seen =>
      obtain ⟨content, there, decoded⟩ := there
      exact agrees.touched there decoded

/-- A file that is overwritten is seen with the stamp that it gets. -/
theorem overwritten (agrees : Agrees barred path location watch .seen) (text : String) (stderr : String) :
    let store := watch.world.store.putFile location text.toUTF8
    store.stamp? path = some watch.world.store.clock ∧
      Agrees barred path location
        ⟨{ watch.world with store := store, stderr := stderr }, watch.world.store.clock⟩ .seen := by
  intro store
  obtain ⟨content, there, -⟩ := agrees.there
  have held := Store.node?_putFile_self agrees.free text.toUTF8
  have still : store.locate path = .ok location := by
    rw [← Store.locate_congr (Store.sameShape_putFile there _), agrees.located]
  refine ⟨?_, ?_⟩
  · rw [Store.stamp?_of_located still, held]
    rfl
  · exact ⟨(Store.readOnly_putFile _ _ _).trans agrees.rights, still, agrees.below,
      Store.clock_lt_putFile _ _ _, _, held, by rw [fromUTF8?_toUTF8]; rfl⟩

/-- A file that gets the formatted text, has it, or may not be written, is seen. -/
theorem delivered (agrees : Agrees barred path location watch .seen) (named : path.isNameable = true)
    (output : job.output = none) (source text : String) :
    ∃ after, watch.deliver job path source text = (none, after) ∧
      Agrees barred path location after .seen ∧ after.world.stdout = watch.world.stdout ∧
      Delivered path location source text watch.world after.world := by
  obtain ⟨content, there, -⟩ := agrees.there
  rw [Watch.deliver, output]
  by_cases unchanged : text = source
  · have same : Treated.changes ⟨path, source, text⟩ = false := by simp [Treated.changes, unchanged]
    refine ⟨watch.announce path, if_pos ⟨rfl, unchanged⟩, agrees.congr rfl rfl, rfl, ?_⟩
    rw [Delivered, if_neg fun differs => differs.1 unchanged]
    exact ⟨.of_same same, by simp [Watch.announce, World.warnLine, World.warn, String.append_assoc]⟩
  · rw [Option.getD_none, if_neg fun same => unchanged same.2]
    by_cases denied : location ∈ watch.world.store.readOnly
    · rw [World.writeText_of_readOnly named agrees.located there denied]
      refine ⟨_, rfl, agrees.congr rfl rfl, rfl, ?_⟩
      rw [Delivered, if_pos ⟨unchanged, denied⟩]
      exact ⟨rfl, by simp [World.warnLine, World.warn, String.append_assoc]⟩
    · have changed : Treated.changes ⟨path, source, text⟩ = true := by simp [Treated.changes, unchanged]
      rw [World.writeText_of_file named agrees.located there denied]
      dsimp only
      rw [if_pos rfl, (agrees.overwritten text "").1]
      refine ⟨_, rfl, (agrees.overwritten text _).2, rfl, ?_⟩
      rw [Delivered, if_neg fun barred => denied barred.2]
      exact ⟨.putFile agrees.located there changed,
        by simp [Watch.announce, World.warnLine, World.warn, String.append_assoc]⟩

/-- A look at a file that was seen, or is missing, does nothing. -/
theorem idle (agrees : Agrees barred path location watch standing) (named : path.isNameable = true)
    (old : standing ≠ .changed) : watch.look memory job path = (none, watch) := by
  have there := agrees.there
  rw [Watch.look, named, Store.stamp?_of_located agrees.located]
  cases standing with
  | changed => exact absurd rfl old
  | missing =>
    rw [there]
    rfl
  | seen =>
    obtain ⟨content, there, -⟩ := there
    rw [there]
    exact if_pos rfl

/-- A look at a file that changed formats it. -/
theorem formats (agrees : Agrees barred path location watch .changed) (named : path.isNameable = true) :
    ∃ source stamp, watch.world.store.readText path = .ok source ∧
      Agrees barred path location { watch with seen := stamp } .seen ∧
      watch.look memory job path = { watch with seen := stamp }.reformat memory job path source := by
  obtain ⟨content, stamp, there, decoded, fresh, given⟩ := agrees.there
  obtain ⟨text, spelled⟩ := Option.isSome_iff_exists.1 decoded
  have read := Store.readText_of_file agrees.located there spelled
  refine ⟨_, stamp, read,
    ⟨agrees.rights, agrees.located, agrees.below, given, content, there, decoded⟩, ?_⟩
  rw [Watch.look, named, Store.stamp?_of_located agrees.located, there]
  dsimp only [Option.map_some, Node.stamp]
  rw [if_neg (by decide), if_neg fresh, World.readText_eq_ok_iff.2 ⟨named, read⟩]

/-- A look does what the standing of the file asks for, and the file is seen afterwards if it is there. -/
theorem looked (agrees : Agrees barred path location watch standing) (named : path.isNameable = true)
    (output : job.output = none) :
    (watch.looking memory job path).Fits memory job path location standing ∧
      ((watch.looking memory job path).breakdown = none →
        Agrees barred path location (watch.looking memory job path).after standing.looked) := by
  rw [Watch.looking]
  cases standing with
  | missing =>
    rw [agrees.idle named (by decide)]
    exact ⟨⟨agrees.there, rfl, rfl⟩, fun _ => agrees⟩
  | seen =>
    obtain ⟨content, there, -⟩ := agrees.there
    rw [agrees.idle named (by decide)]
    exact ⟨⟨⟨content, there⟩, rfl, rfl⟩, fun _ => agrees⟩
  | changed =>
    obtain ⟨source, stamp, read, seen, found⟩ := @formats memory job _ _ _ _ agrees named
    rw [found, Watch.reformat, World.formatSource_eq]
    cases laid : format? memory job.options source with
    | error fault =>
      refine ⟨⟨source, read, rfl, ?_⟩, fun whole => by cases whole⟩
      rw [laid]
      exact ⟨rfl, rfl, rfl⟩
    | ok text =>
      have shown : Agrees barred path location ⟨watch.world.warn (job.dump source), stamp⟩ .seen :=
        seen.congr rfl rfl
      obtain ⟨after, delivers, follows, kept, done⟩ := shown.delivered named output source text
      dsimp only
      rw [delivers]
      refine ⟨⟨source, read, kept, ?_⟩, fun _ => follows⟩
      rw [laid]
      exact ⟨rfl, done⟩

/-- Every look of a watch does what the standing of the file asks for, and a watch that does not break down
looks before, between and after all events. -/
theorem looks_fit (agrees : Agrees barred path location watch standing) (named : path.isNameable = true)
    (output : job.output = none) (concern : ∀ event ∈ events, event.Concerns path) :
    ∃ covered, covered <+: standing.course events ∧
      List.Forall₂ (Look.Fits memory job path location) (watch.looks memory job path events) covered ∧
      ((Watch.run memory job path events watch).breakdown = none → covered = standing.course events) := by
  induction events generalizing watch standing with
  | nil => exact ⟨_, List.prefix_rfl, .cons (agrees.looked named output).1 .nil, fun _ => rfl⟩
  | cons event events ih =>
    obtain ⟨fits, follows⟩ := @looked memory job _ _ _ _ _ agrees named output
    rw [Watch.breakdown_cons]
    cases ended : (watch.looking memory job path).breakdown with
    | some cause =>
      rw [(Watch.looks_of_breakdown ended).1]
      exact ⟨[standing], ⟨_, rfl⟩, .cons fits .nil, nofun⟩
    | none =>
      have onward := (follows ended).resume (concern event List.mem_cons_self)
      obtain ⟨covered, front, fit, whole⟩ :=
        ih onward fun event member => concern event (List.mem_cons_of_mem _ member)
      rw [Watch.looks_cons ended]
      exact ⟨standing :: covered, List.cons_prefix_cons.2 ⟨rfl, front⟩, .cons fits fit,
        fun quiet => congrArg (standing :: ·) (whole quiet)⟩

end Agrees

/-- What is printed when a file is formatted some times. -/
def formattedLines (path : Path) (count : Nat) : String :=
  String.join (List.replicate count ("Formatted " ++ path.shown ++ "\n"))

/-- The lines of some times and those of some more are the lines of all of them. -/
theorem formattedLines_add (path : Path) (first others : Nat) :
    formattedLines path (first + others) = formattedLines path first ++ formattedLines path others := by
  rw [formattedLines, List.replicate_add, String.join_append, formattedLines, formattedLines]

/-- A look at a file that changed and may be written prints one line, and other looks print nothing. -/
theorem Look.Fits.printed {memory : Memory} {job : Job} {path : Path} {location : Location}
    {standing : Standing} {look : Look} (fits : look.Fits memory job path location standing)
    (silent : job.debug = false) (writable : location ∉ look.before.world.store.readOnly)
    (whole : look.breakdown = none) :
    look.after.world.stderr = look.before.world.stderr ++ formattedLines path ([standing].count .changed) := by
  cases standing with
  | missing =>
    rw [fits.2.1]
    exact String.append_empty.symm
  | seen =>
    rw [fits.2.1]
    exact String.append_empty.symm
  | changed =>
    obtain ⟨source, -, -, result⟩ := fits
    cases laid : format? memory job.options source with
    | error fault =>
      rw [laid, whole] at result
      cases result.1
    | ok text =>
      rw [laid] at result
      obtain ⟨-, delivered⟩ := result
      rw [Delivered, if_neg fun barred => writable barred.2] at delivered
      rw [delivered.2, World.warn, Job.dump, silent]
      simp [formattedLines, String.append_assoc]

/-- A watch that does not break down and may write its file prints one line for every time that it changed. -/
theorem Agrees.printed {memory : Memory} {job : Job} {barred : List Location} {path : Path}
    {location : Location} {watch : Watch} {standing : Standing} {events : List Event}
    (agrees : Agrees barred path location watch standing) (named : path.isNameable = true)
    (output : job.output = none) (silent : job.debug = false) (writable : location ∉ barred)
    (concern : ∀ event ∈ events, event.Concerns path)
    (whole : (Watch.run memory job path events watch).breakdown = none) :
    String.join ((Watch.run memory job path events watch).snapshots.map Snapshot.stderr) =
      watch.world.stderr ++ formattedLines path ((standing.course events).count .changed) := by
  induction events generalizing watch standing with
  | nil =>
    rw [Watch.breakdown_nil] at whole
    rw [Watch.snapshots_nil whole, Standing.course]
    have line := (agrees.looked named output).1.printed silent (agrees.rights ▸ writable) whole
    rw [List.map_singleton, String.join_cons, String.join_nil, String.append_empty]
    exact line
  | cons event events ih =>
    obtain ⟨fits, follows⟩ := @Agrees.looked memory job _ _ _ _ _ agrees named output
    rw [Watch.breakdown_cons, Option.or_eq_none_iff] at whole
    obtain ⟨first, others⟩ := whole
    have onward := (follows first).resume (concern event List.mem_cons_self)
    have rest := ih onward (fun event member => concern event (List.mem_cons_of_mem _ member)) others
    calc
      String.join ((Watch.run memory job path (event :: events) watch).snapshots.map Snapshot.stderr)
        = (watch.looking memory job path).after.world.stderr ++
            ("" ++ formattedLines path (((standing.looked.after event).course events).count .changed)) := by
          rw [Watch.snapshots_cons first, List.map_cons, String.join_cons, rest]
          rfl
      _ = watch.world.stderr ++ (formattedLines path ([standing].count .changed) ++
            formattedLines path (((standing.looked.after event).course events).count .changed)) := by
          rw [fits.printed silent (agrees.rights ▸ writable) first, String.empty_append, String.append_assoc]
          rfl
      _ = watch.world.stderr ++ formattedLines path ((standing.course (event :: events)).count .changed) := by
          rw [← formattedLines_add, ← List.count_append]
          rfl

/-- A file that can be watched agrees with a watch that has not looked yet. -/
theorem Watchable.agrees {world : World} {path : Path} {location : Location}
    (watchable : Watchable world.store path location) :
    Agrees world.store.readOnly path location (Watch.opened path world) (.initial world.store location) := by
  refine ⟨rfl, watchable.located, watchable.below, watchable.started, ?_⟩
  rw [Standing.initial]
  cases there : world.store.node? location with
  | none => exact there
  | some node =>
    obtain ⟨content, stamp, rfl, decoded, positive, given⟩ := watchable.regular node there
    exact ⟨content, stamp, there, decoded, Nat.ne_of_gt positive, given⟩

/-- A watch of a file to which the events happen, and which it overwrites. Each look does what the standing of
the file asks for: nothing if the file is missing or as the last look left it, and if it changed since, one
report, with the formatted text written if it differs and nothing else changed, or the news that there is no
permission to write it. The watch looks before, between and after all events, unless a layout cannot be written.
So it reports a file that may be written as often as it changed, the text that was there at first included. -/
theorem watch_formats_changes {memory : Memory} {job : Job} {path : Path} {location : Location} {world : World}
    (watchable : Watchable world.store path location) (output : job.output = none) {events : List Event}
    (concern : ∀ event ∈ events, event.Concerns path) :
    let course := (Standing.initial world.store location).course events
    let looks := (Watch.opened path world).looks memory job path events
    let watched := Watch.start memory job path events world
    (∃ covered, covered <+: course ∧ List.Forall₂ (Look.Fits memory job path location) looks covered ∧
        (watched.breakdown = none → covered = course)) ∧
      watched.snapshots =
        (looks.filter fun look => look.breakdown.isNone).map (fun look => look.after.snapshot) ∧
      (job.debug = false → location ∉ world.store.readOnly → watched.breakdown = none →
        String.join (watched.snapshots.map Snapshot.stderr) =
          world.stderr ++ "Watching " ++ path.shown ++ " for changes...\n" ++
            formattedLines path (course.count .changed)) := by
  intro course looks watched
  have agrees := watchable.agrees
  refine ⟨agrees.looks_fit watchable.named output concern, Watch.snapshots_eq_looks _ _ _ _ _, ?_⟩
  intro silent writable whole
  refine (agrees.printed watchable.named output silent writable concern whole).trans ?_
  simp [Watch.opened, World.warnLine, World.warn, String.append_assoc, course]

/-- A file that is there at first, is left alone, touched, written, removed, and written again. -/
theorem watch_formats_changes_of_query :
    let platform : Platform := .boundless id
    let path : Path := .ofText "query"
    let store : Store := { nodes := [(⟨.above 0, ["query"]⟩, .file "select a, b".toUTF8 1)] }
    let events : List Event := [.idle, .touch path, .write path "select c".toUTF8, .idle, .delete path, .idle,
      .write path "SELECT\n  a,\n  b\n".toUTF8]
    (run platform ["query", "--watch"] "" events store).ending = .exit 0 ∧
      String.join ((run platform ["query", "--watch"] "" events store).snapshots.map Snapshot.stderr) =
        "Watching query for changes...\n" ++ String.join (List.replicate 4 "Formatted query\n") := by
  intro platform path store events
  let job : Job := ⟨[path], none, false, false, true, false, {}⟩
  have accepted : prepare platform ["query", "--watch"] store = .ok job := prepare_eq_ok (by decide +kernel)
  have located : store.locate path = .ok ⟨.above 0, ["query"]⟩ := by with_unfolding_all rfl
  have whole : (Watch.start platform.memory job path events { store := store }).breakdown = none := by
    decide +kernel
  have watchable : Watchable store path ⟨.above 0, ["query"]⟩ := by
    refine ⟨by decide +kernel, located, List.cons_ne_nil _ _, by decide, ?_⟩
    intro node there
    cases there
    exact ⟨_, _, rfl, by decide +kernel, by decide, by decide⟩
  have concern : ∀ event ∈ events, event.Concerns path := by decide +kernel
  obtain ⟨-, -, printed⟩ := @watch_formats_changes platform.memory job path _ { store := store } watchable rfl
    events concern
  rw [run_eq_perform accepted, @perform_of_watch platform.memory job path rfl rfl]
  refine ⟨?_, ?_⟩
  · dsimp only
    rw [whole]
    rfl
  · rw [printed rfl List.not_mem_nil whole]
    rfl

end SqlLayout.Command
