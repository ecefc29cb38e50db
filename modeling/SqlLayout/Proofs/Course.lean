import SqlLayout.Proofs.Spacing

/-!
# The course of a layout

A course is a walk through states: every entry comes from a step out of the state that the entry
before it left behind (`walk_course`). What one step keeps is therefore kept along the whole course
(`Walk.invariant`), and a course can be cut anywhere into walks (`Walk.append`, `walk_split`).
-/

namespace SqlLayout

deriving instance DecidableEq for Entry

/-- Where a course has no entry, the end of a source is read. -/
instance : Inhabited Entry :=
  ⟨⟨⟨.eof, "", "", ⟨.first, .first⟩⟩, {}, []⟩⟩

/-- The state behind entries that start in the given state. -/
def State.after (state : State) (entries : List Entry) : State :=
  entries.foldl (fun _ entry => entry.state) state

namespace State

@[simp] theorem after_nil (state : State) : state.after [] = state := rfl

@[simp] theorem after_cons (state : State) (entry : Entry) (entries : List Entry) :
    state.after (entry :: entries) = entry.state.after entries := rfl

@[simp] theorem after_append (state : State) (front back : List Entry) :
    state.after (front ++ back) = (state.after front).after back :=
  List.foldl_append

end State

/-- Whether an entry comes from laying out its token in a state. -/
structure Entry.Leaves (commas : CommaPosition) (state : State) (entry : Entry) : Prop where
  /-- The token is not layout. -/
  visible : entry.token.isLayout = false
  /-- The token is not the end. -/
  going : entry.token.kind ≠ .eof
  /-- The next state and the pieces are those of a step, whatever tokens it looked at. -/
  step : ∃ following, state.step commas entry.token following = (entry.state, entry.pieces)

/-- What a step leaves is what is placed for its token, and the token is remembered. -/
theorem Entry.placed {commas : CommaPosition} {state : State} {entry : Entry} {following : List Token}
    (step : state.step commas entry.token following = (entry.state, entry.pieces)) :
    entry.pieces = (state.place commas entry.token following).2 ∧
      entry.state =
        { (state.place commas entry.token following).1 with last := some entry.token } :=
  ⟨(congrArg Prod.snd step).symm, (congrArg Prod.fst step).symm⟩

/-- An entry holds what is placed for its token, and the token is remembered. -/
theorem Entry.Leaves.place {commas : CommaPosition} {state : State} {entry : Entry}
    (leaves : entry.Leaves commas state) :
    ∃ following, entry.pieces = (state.place commas entry.token following).2 ∧
      entry.state =
        { (state.place commas entry.token following).1 with last := some entry.token } := by
  obtain ⟨following, step⟩ := leaves.step
  exact ⟨following, Entry.placed step⟩

/-- Whether entries come one after another from laying out their tokens. -/
inductive Walk (commas : CommaPosition) : State → List Entry → Prop
  /-- Nothing is laid out. -/
  | done (state : State) : Walk commas state []
  /-- A token is laid out, and the others in the state that it leaves behind. -/
  | next {state : State} {entry : Entry} {entries : List Entry} (leaves : entry.Leaves commas state)
    (others : Walk commas entry.state entries) : Walk commas state (entry :: entries)

/-- The course from a state on is a walk. -/
theorem walk_courseFrom (commas : CommaPosition) (state : State) (tokens : List Token) :
    Walk commas state (courseFrom commas state tokens) := by
  induction tokens generalizing state with
  | nil => exact Walk.done state
  | cons token rest ih =>
    rw [courseFrom]
    by_cases layout : token.isLayout = true
    · rw [if_pos layout]
      exact ih state
    rw [if_neg layout]
    by_cases ended : token.kind = .eof
    · rw [if_pos ended]
      exact Walk.done state
    · rw [if_neg ended]
      exact Walk.next ⟨by simpa using layout, ended, rest, rfl⟩ (ih _)

/-- The tokens of a course are among those that are laid out. -/
theorem mem_of_mem_courseFrom {commas : CommaPosition} {state : State} {tokens : List Token}
    {entry : Entry} (member : entry ∈ courseFrom commas state tokens) : entry.token ∈ tokens := by
  induction tokens generalizing state with
  | nil => exact absurd member List.not_mem_nil
  | cons token rest ih =>
    rw [courseFrom] at member
    split at member
    · exact List.mem_cons_of_mem token (ih member)
    split at member
    · exact absurd member List.not_mem_nil
    · rcases List.mem_cons.1 member with rfl | later
      · exact List.mem_cons_self
      · exact List.mem_cons_of_mem token (ih later)

/-- A walk can be cut anywhere. -/
theorem Walk.append {commas : CommaPosition} {state : State} {front back : List Entry}
    (walk : Walk commas state (front ++ back)) :
    Walk commas state front ∧ Walk commas (state.after front) back := by
  induction front generalizing state with
  | nil => exact ⟨Walk.done state, walk⟩
  | cons entry front ih =>
    cases walk with
    | next leaves others =>
      obtain ⟨first, second⟩ := ih others
      exact ⟨Walk.next leaves first, second⟩

/-- An entry of a walk comes from a step, and the others go on behind it. -/
theorem Walk.head {commas : CommaPosition} {state : State} {entry : Entry} {entries : List Entry}
    (walk : Walk commas state (entry :: entries)) :
    entry.Leaves commas state ∧ Walk commas entry.state entries := by
  cases walk with
  | next leaves others => exact ⟨leaves, others⟩

/-- What holds of a state and of what was laid out before it, and what a step keeps, holds at the end
of a walk. -/
theorem Walk.invariant {commas : CommaPosition} (holds : List Entry → State → Prop)
    (kept : ∀ past state entry, Entry.Leaves commas state entry → holds past state →
      holds (past ++ [entry]) entry.state)
    {state : State} {entries : List Entry} (walk : Walk commas state entries) (past : List Entry)
    (initial : holds past state) : holds (past ++ entries) (state.after entries) := by
  induction walk generalizing past with
  | done state => rwa [List.append_nil]
  | next leaves others ih =>
    rename_i state entry entries
    have later := ih _ (kept past state entry leaves initial)
    rwa [List.append_assoc, List.singleton_append] at later

/-- An entry of a course comes from a step out of the state behind the entries before it, which are a
walk, and so are the entries behind it. -/
theorem walk_split {commas : CommaPosition} {tokens : List Token} {past later : List Entry}
    {entry : Entry} (split : course commas tokens = past ++ entry :: later) :
    Walk commas {} past ∧ entry.Leaves commas (({} : State).after past) ∧
      Walk commas entry.state later := by
  have walk := walk_courseFrom commas {} tokens
  rw [← course, split] at walk
  obtain ⟨before, behind⟩ := walk.append
  exact ⟨before, behind.head⟩

/-- An entry shifts the levels as its token does. -/
theorem Entry.Leaves.shifts {commas : CommaPosition} {state : State} {entry : Entry}
    (leaves : entry.Leaves commas state) : Shifts entry.token state.frame entry.state.frame := by
  obtain ⟨following, step⟩ := leaves.step
  have shifts := state.step_shifts commas entry.token following
  rwa [step] at shifts

/-- A step keeps levels counting from the margin. -/
theorem Entry.Leaves.grounded {commas : CommaPosition} {state : State} {entry : Entry}
    (leaves : entry.Leaves commas state) (grounded : state.frame.Grounded) :
    entry.state.frame.Grounded :=
  leaves.shifts.grounded grounded

/-- Levels count from the margin along a walk. -/
theorem Walk.grounded {commas : CommaPosition} {state : State} {entries : List Entry}
    (walk : Walk commas state entries) (initial : state.frame.Grounded) :
    (state.after entries).frame.Grounded :=
  Walk.invariant (fun _ state => state.frame.Grounded)
    (fun _ _ _ leaves grounded => leaves.grounded grounded) walk [] initial

end SqlLayout
