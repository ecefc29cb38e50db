import SqlLayout.Command.Watch

/-!
# The looks of a watch

A watch is a sequence of looks at its file with an event between two of them (`Watch.looks`). What it has to
show is what there was to see after each look (`Watch.snapshots_eq_looks`), and the first look that breaks
down ends it (`Watch.breakdown_cons`).
-/

namespace SqlLayout.Command

/-- A look at a file. -/
structure Look where
  /-- The watch before the look. -/
  before : Watch
  /-- The watch after it. -/
  after : Watch
  /-- What ended the watch, if anything. -/
  breakdown : Option Breakdown

namespace Watch

/-- What a watch does when it looks at a file. -/
def looking (memory : Memory) (job : Job) (path : Path) (watch : Watch) : Look :=
  ⟨watch, (watch.look memory job path).2, (watch.look memory job path).1⟩

/-- The looks of a watch before, between and after the events, up to one that ends it. -/
def looks (memory : Memory) (job : Job) (path : Path) : List Event → Watch → List Look
  | [], watch => [watch.looking memory job path]
  | event :: rest, watch =>
    watch.looking memory job path ::
      match (watch.looking memory job path).breakdown with
      | some _ => []
      | none => looks memory job path rest ((watch.looking memory job path).after.resume event)

/-- Behind the last event there is one look. -/
theorem run_nil (memory : Memory) (job : Job) (path : Path) (watch : Watch) :
    run memory job path [] watch =
      match watch.look memory job path with
      | (some cause, watch) => ⟨[], watch.world, some cause⟩
      | (none, watch) => ⟨[watch.snapshot], (watch.resume .idle).world, none⟩ := by
  rcases found : watch.look memory job path with ⟨_ | _, _⟩ <;> rw [run, found]

/-- Before an event there is one look, and a watch that did not end goes on from what the event leaves. -/
theorem run_cons (memory : Memory) (job : Job) (path : Path) (event : Event) (events : List Event)
    (watch : Watch) :
    run memory job path (event :: events) watch =
      match watch.look memory job path with
      | (some cause, watch) => ⟨[], watch.world, some cause⟩
      | (none, watch) =>
        let later := run memory job path events (watch.resume event)
        { later with snapshots := watch.snapshot :: later.snapshots } := by
  rcases found : watch.look memory job path with ⟨_ | _, _⟩ <;> rw [run, found]

/-- A watch breaks down at its only look if that does. -/
theorem breakdown_nil (memory : Memory) (job : Job) (path : Path) (watch : Watch) :
    (run memory job path [] watch).breakdown = (watch.looking memory job path).breakdown := by
  rw [run_nil, looking]
  rcases watch.look memory job path with ⟨_ | _, _⟩ <;> rfl

/-- A watch breaks down at its first look that does. -/
theorem breakdown_cons (memory : Memory) (job : Job) (path : Path) (event : Event) (events : List Event)
    (watch : Watch) :
    (run memory job path (event :: events) watch).breakdown =
      (watch.looking memory job path).breakdown.or
        (run memory job path events ((watch.looking memory job path).after.resume event)).breakdown := by
  rw [run_cons, looking]
  rcases watch.look memory job path with ⟨_ | _, _⟩ <;> rfl

variable {memory : Memory} {job : Job} {path : Path} {event : Event} {events : List Event} {watch : Watch}

/-- What there is to see of a watch with one look is what there is to see after it. -/
theorem snapshots_nil (whole : (watch.looking memory job path).breakdown = none) :
    (run memory job path [] watch).snapshots = [(watch.looking memory job path).after.snapshot] := by
  revert whole
  rw [run_nil, looking]
  rcases watch.look memory job path with ⟨_ | _, _⟩
  · exact fun _ => rfl
  · exact nofun

/-- What there is to see of a watch is what there is to see after its first look and behind it. -/
theorem snapshots_cons (whole : (watch.looking memory job path).breakdown = none) :
    (run memory job path (event :: events) watch).snapshots =
      (watch.looking memory job path).after.snapshot ::
        (run memory job path events ((watch.looking memory job path).after.resume event)).snapshots := by
  revert whole
  rw [run_cons, looking]
  rcases watch.look memory job path with ⟨_ | _, _⟩
  · exact fun _ => rfl
  · exact nofun

/-- A look that breaks down ends a watch, and there is nothing more to see. -/
theorem looks_of_breakdown {cause : Breakdown}
    (ended : (watch.looking memory job path).breakdown = some cause) :
    watch.looks memory job path events = [watch.looking memory job path] ∧
      (run memory job path events watch).snapshots = [] := by
  have found : watch.look memory job path = (some cause, (watch.looking memory job path).after) := by
    rw [← ended]
    rfl
  cases events with
  | nil => rw [run_nil, found]; exact ⟨rfl, rfl⟩
  | cons => rw [run_cons, found, looks, ended]; exact ⟨rfl, rfl⟩

/-- A look that does not break down is followed by the looks behind the next event. -/
theorem looks_cons (whole : (watch.looking memory job path).breakdown = none) :
    watch.looks memory job path (event :: events) =
      watch.looking memory job path ::
        ((watch.looking memory job path).after.resume event).looks memory job path events := by
  rw [looks, whole]

/-- What there is to see of a watch is what there was to see after its looks, without one that ended it. -/
theorem snapshots_eq_looks (memory : Memory) (job : Job) (path : Path) (events : List Event) (watch : Watch) :
    (run memory job path events watch).snapshots =
      ((watch.looks memory job path events).filter fun look => look.breakdown.isNone).map fun look =>
        look.after.snapshot := by
  induction events generalizing watch with
  | nil =>
    cases ended : (watch.looking memory job path).breakdown with
    | some => simp [looks_of_breakdown ended, ended]
    | none => simp [snapshots_nil ended, looks, ended]
  | cons event events ih =>
    cases ended : (watch.looking memory job path).breakdown with
    | some => simp [looks_of_breakdown ended, ended]
    | none => simp [snapshots_cons ended, looks_cons ended, ended, ih]

end Watch

end SqlLayout.Command
