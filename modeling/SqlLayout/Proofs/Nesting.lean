import SqlLayout.Proofs.Consistency

/-!
# Well-nested tokens

Parentheses and CASE expressions are brackets. A parenthesis with lines of its own keeps the level
that holds again behind it, an inline one leaves the level alone, and a CASE keeps its level on a
stack of its own. Closing the brackets that are open restores the levels before them (`Restores`),
whatever a parenthesis was opened for, and one step keeps this (`Restores.step`). Tokens whose
brackets form a well-nested word therefore leave all levels as they were (`Walk.frame_of_nested`).
-/

namespace SqlLayout

/-- What is opened and closed in pairs. -/
inductive Bracket where
  /-- A parenthesis. -/
  | paren
  /-- A CASE with its END. -/
  | case
deriving DecidableEq

/-- The brackets that are left when one is closed, if it is the innermost of those that are open. -/
def Bracket.close (bracket : Bracket) : List Bracket → Option (List Bracket)
  | [] => none
  | inner :: outer => if inner = bracket then some outer else none

/-- The brackets that are open behind a token, innermost first, if it closes no other than the
innermost one and does not end the statement. -/
def Token.nests (token : Token) (brackets : List Bracket) : Option (List Bracket) :=
  if token.kind.endsStatement then none
  else if token.kind = .lparen then some (.paren :: brackets)
  else if token.isKeyword "CASE" then some (.case :: brackets)
  else if token.kind = .rparen then Bracket.paren.close brackets
  else if token.isKeyword "END" then Bracket.case.close brackets
  else some brackets

/-- The brackets that are open behind tokens, innermost first, if every token nests. -/
def openBrackets (brackets : List Bracket) : List Token → Option (List Bracket)
  | [] => some brackets
  | token :: rest => (token.nests brackets).bind fun inner => openBrackets inner rest

/-- Whether the brackets of tokens, which do not end the statement, form a well-nested word. -/
def WellNested (tokens : List Token) : Prop :=
  openBrackets [] tokens = some []

/-- Whether tokens are well nested can be decided. -/
instance (tokens : List Token) : Decidable (WellNested tokens) :=
  inferInstanceAs (Decidable (openBrackets [] tokens = some []))

/-! ## Closing brackets -/

/-- Only the innermost bracket is closed. -/
theorem Bracket.close_eq_some {bracket : Bracket} {brackets rest : List Bracket}
    (closed : bracket.close brackets = some rest) : brackets = bracket :: rest := by
  cases brackets with
  | nil => cases closed
  | cons inner outer =>
    rw [close] at closed
    split at closed
    · rename_i same
      rw [same, Option.some.inj closed]
    · cases closed

/-- Whether closing the given brackets, innermost first, leads back to the levels of a base. -/
inductive Restores (base : Frame) : List Bracket → Frame → Prop
  /-- Nothing is open. -/
  | none : Restores base [] base
  /-- A parenthesis with lines of its own holds the level around it; an inline one has not changed
  it. -/
  | paren {brackets : List Bracket} {frame : Frame} (outer : Restores base brackets frame)
    (kind : ConstructKind) (column : Int) {level : Int}
    (inline : kind.isMultiline = false → level = frame.level) :
    Restores base (.paren :: brackets)
      ⟨level, ⟨kind, frame.level, column⟩ :: frame.constructs, frame.caseLevels⟩
  /-- A CASE holds the level around it. -/
  | case {brackets : List Bracket} {frame : Frame} (outer : Restores base brackets frame)
    (level : Int) :
    Restores base (.case :: brackets) ⟨level, frame.constructs, frame.level :: frame.caseLevels⟩

namespace Restores

variable {base frame next : Frame} {brackets : List Bracket} {token : Token}

/-- Closing the innermost parenthesis leads back to the levels around it. -/
theorem closeParen (restores : Restores base (.paren :: brackets) frame) {construct : Construct}
    {outer : List Construct} (innermost : frame.constructs = construct :: outer) :
    Restores base brackets
      ⟨if construct.kind.isMultiline then construct.outerLevel else frame.level, outer,
        frame.caseLevels⟩ := by
  cases restores with
  | paren around kind column inline =>
    rename_i before level
    obtain ⟨rfl, rfl⟩ := List.cons.inj innermost
    have level : (if kind.isMultiline then before.level else level) = before.level := by
      split
      · rfl
      · rename_i single
        exact inline (by simpa using single)
    dsimp only
    rw [level]
    exact around

/-- Closing the innermost CASE leads back to the levels around it. -/
theorem closeCase (restores : Restores base (.case :: brackets) frame) {level : Int}
    {outer : List Int} (innermost : frame.caseLevels = level :: outer) :
    Restores base brackets ⟨level, frame.constructs, outer⟩ := by
  cases restores with
  | case around inner =>
    obtain ⟨rfl, rfl⟩ := List.cons.inj innermost
    exact around

/-- One token keeps the way back to the base. -/
theorem step (restores : Restores base brackets frame) (shifts : Shifts token frame next)
    {rest : List Bracket} (nests : token.nests brackets = some rest) :
    Restores base rest next := by
  have goesOn : token.kind.endsStatement = false := by
    rw [Bool.eq_false_iff]
    intro ends
    rw [Token.nests, if_pos ends] at nests
    cases nests
  rw [Token.nests, if_neg (by simp [goesOn])] at nests
  cases shifts with
  | openParen opens kind near =>
    rw [if_pos opens] at nests
    rw [← Option.some.inj nests]
    refine Restores.paren restores kind _ fun inline => ?_
    rw [if_neg (by simp [inline])]
  | closeParen closes innermost =>
    have noCase := Token.isKeyword_of_kind (by simp [closes] : token.kind ≠ .keyword) "CASE"
    rw [if_neg (by simp [closes]), if_neg (by simp [noCase]), if_pos closes] at nests
    rw [Bracket.close_eq_some nests] at restores
    exact restores.closeParen innermost
  | openCase opens near =>
    have word := Token.kind_of_isKeyword opens
    rw [if_neg (by simp [word]), if_pos opens] at nests
    rw [← Option.some.inj nests]
    exact Restores.case restores _
  | closeCase closes innermost =>
    have word := Token.kind_of_isKeyword closes
    have noCase : token.isKeyword "CASE" = false := by
      simp [Token.isKeyword, Token.value_of_isKeyword closes]
    rw [if_neg (by simp [word]), if_neg (by simp [noCase]), if_neg (by simp [word]),
      if_pos closes] at nests
    rw [Bracket.close_eq_some nests] at restores
    exact restores.closeCase innermost
  | statement ends =>
    rw [ends] at goesOn
    cases goesOn
  | stays opensNone closesNone goesOn =>
    rw [if_neg opensNone.1, if_neg (by simp [opensNone.2])] at nests
    -- A bracket that the word closes is open, so a token that stays closes none.
    split_ifs at nests with closes ends
    · rw [Bracket.close_eq_some nests] at restores
      cases restores with
      | paren around kind column inline => cases closesNone.1 closes
    · rw [Bracket.close_eq_some nests] at restores
      cases restores with
      | case around inner => cases closesNone.2 ends
    · rwa [← Option.some.inj nests]

end Restores

/-! ## Whole segments -/

/-- A walk over tokens that nest keeps the way back to the base. -/
theorem Walk.restores {commas : CommaPosition} {state : State} {entries : List Entry}
    (walk : Walk commas state entries) {base : Frame} {brackets rest : List Bracket}
    (restores : Restores base brackets state.frame)
    (nests : openBrackets brackets (entries.map Entry.token) = some rest) :
    Restores base rest (state.after entries).frame := by
  induction walk generalizing brackets with
  | done state =>
    rw [← Option.some.inj nests]
    exact restores
  | next leaves others ih =>
    rw [List.map_cons, openBrackets] at nests
    obtain ⟨inner, first, others⟩ := Option.bind_eq_some_iff.1 nests
    exact ih (restores.step leaves.shifts first) others

/-- A walk over well-nested tokens leaves all levels as they were. -/
theorem Walk.frame_of_nested {commas : CommaPosition} {state : State} {entries : List Entry}
    (walk : Walk commas state entries) (nested : WellNested (entries.map Entry.token)) :
    (state.after entries).frame = state.frame := by
  have restored := walk.restores Restores.none nested
  generalize (state.after entries).frame = frame at restored
  cases restored with
  | none => rfl

/-- Layout does not matter for brackets. -/
theorem openBrackets_significant (brackets : List Bracket) (tokens : List Token) :
    openBrackets brackets (significant tokens) = openBrackets brackets tokens := by
  induction tokens generalizing brackets with
  | nil => rfl
  | cons token rest ih =>
    cases layout : token.isLayout with
    | true =>
      have neutral : token.nests brackets = some brackets := by
        rcases kind_of_isLayout layout with kind | kind <;>
          simp [Token.nests, kind, Kind.endsStatement, Token.isKeyword]
      rw [significant_cons_layout layout, ih, openBrackets, neutral, Option.bind_some]
    | false =>
      rw [significant_cons layout, openBrackets, openBrackets]
      congr 1
      funext inner
      exact ih inner

/-- Tokens that nest do not end the source. -/
theorem kind_ne_eof_of_openBrackets {brackets rest : List Bracket} {tokens : List Token}
    (nests : openBrackets brackets tokens = some rest) : ∀ token ∈ tokens, token.kind ≠ .eof := by
  induction tokens generalizing brackets with
  | nil => exact fun token member => absurd member List.not_mem_nil
  | cons first others ih =>
    rw [openBrackets] at nests
    obtain ⟨inner, here, later⟩ := Option.bind_eq_some_iff.1 nests
    refine List.forall_mem_cons.2 ⟨fun ended => ?_, ih later⟩
    rw [Token.nests, if_pos (by rw [ended]; rfl)] at here
    cases here

/-- Tokens before the end are laid out one after another, and then those behind them. -/
theorem courseFrom_append (commas : CommaPosition) (state : State) {front : List Token}
    (going : ∀ token ∈ front, token.kind ≠ .eof) (back : List Token) :
    ∃ entries, entries.map Entry.token = significant front ∧
      courseFrom commas state (front ++ back) =
        entries ++ courseFrom commas (state.after entries) back := by
  induction front generalizing state with
  | nil => exact ⟨[], rfl, rfl⟩
  | cons token front ih =>
    have later := fun state => ih state fun token member => going token (List.mem_cons_of_mem _ member)
    rw [List.cons_append, courseFrom]
    cases layout : token.isLayout with
    | true =>
      rw [significant_cons_layout layout]
      exact later state
    | false =>
      rw [significant_cons layout, if_neg (by simp), if_neg (going token List.mem_cons_self)]
      obtain ⟨next, pieces⟩ := state.step commas token (front ++ back)
      obtain ⟨entries, same, split⟩ := later next
      refine ⟨⟨token, next, pieces⟩ :: entries, congrArg (token :: ·) same, ?_⟩
      dsimp only
      rw [split, State.after_cons, List.cons_append]

/-- Well-nested segments are neutral. Wherever a well-nested segment stands in a token list before
which the end is not reached, its tokens are laid out, and behind them the indentation level, the
open parentheses and the open CASE expressions are what they were before them. -/
theorem nested_segment_neutral (commas : CommaPosition) {front segment : List Token}
    (going : ∀ token ∈ front, token.kind ≠ .eof) (nested : WellNested segment) (back : List Token) :
    ∃ before inside after : List Entry,
      course commas (front ++ segment ++ back) = before ++ inside ++ after ∧
      before.map Entry.token = significant front ∧ inside.map Entry.token = significant segment ∧
      (({} : State).after (before ++ inside)).indentLevel = (({} : State).after before).indentLevel ∧
      (({} : State).after (before ++ inside)).constructs = (({} : State).after before).constructs ∧
      (({} : State).after (before ++ inside)).caseLevels = (({} : State).after before).caseLevels := by
  obtain ⟨before, sameFront, laidOut⟩ := courseFrom_append commas {} going (segment ++ back)
  obtain ⟨inside, sameSegment, others⟩ := courseFrom_append commas (({} : State).after before)
    (kind_ne_eof_of_openBrackets nested) back
  have split : course commas (front ++ segment ++ back) =
      before ++ inside ++ courseFrom commas ((({} : State).after before).after inside) back := by
    rw [course, List.append_assoc, laidOut, others, List.append_assoc]
  have walk : Walk commas (({} : State).after before) inside := by
    have whole := walk_courseFrom commas (({} : State).after before) (segment ++ back)
    rw [others] at whole
    exact whole.append.1
  have insideNested : WellNested (inside.map Entry.token) := by
    rw [sameSegment, WellNested, openBrackets_significant]
    exact nested
  have frame := walk.frame_of_nested insideNested
  refine ⟨before, inside, _, split, sameFront, sameSegment, ?_⟩
  rw [State.after_append]
  exact ⟨congrArg Frame.level frame, congrArg Frame.constructs frame, congrArg Frame.caseLevels frame⟩

/-- A CASE that holds a subquery, with a call inside, leaves the levels of the selection before it. -/
theorem nested_segment_neutral_query :
    WellNested (fuse (tokenize "case when x in (select f(a, b)) then concat(a, (b), c) end").dropLast) ∧
    ∃ before inside after : List Entry,
      course .trailing (fuse (tokenize "select (a, ").dropLast ++
          fuse (tokenize "case when x in (select f(a, b)) then concat(a, (b), c) end").dropLast ++
          fuse (tokenize ", b) from t")) = before ++ inside ++ after ∧
      inside.length = 25 ∧
      (({} : State).after (before ++ inside)).constructs = (({} : State).after before).constructs := by
  have nested : WellNested
      (fuse (tokenize "case when x in (select f(a, b)) then concat(a, (b), c) end").dropLast) := by
    decide +kernel
  have going : ∀ token ∈ fuse (tokenize "select (a, ").dropLast, token.kind ≠ .eof := by
    decide +kernel
  obtain ⟨before, inside, after, split, -, same, -, constructs, -⟩ :=
    nested_segment_neutral .trailing going nested (fuse (tokenize ", b) from t"))
  have count : inside.length = 25 := by
    rw [← List.length_map, same]
    decide +kernel
  exact ⟨nested, before, inside, after, split, count, constructs⟩

end SqlLayout
