import SqlLayout.Proofs.Course
import SqlLayout.Proofs.Statement

/-!
# The state of a layout is consistent

The fields of a state depend on each other and on what has been laid out. Levels count from the
margin; the stacks hold one entry for every parenthesis and every CASE that the statement has left
open; a line that has just begun is empty; a break behind a block is due inside an inline parenthesis
only; and before the first item of a statement nothing is open or due. One step keeps all of this
(`Consistent.step`), so it holds behind every token of a course (`course_consistent`).
-/

namespace SqlLayout

/-! ## What a statement has left open -/

/-- The tokens behind the last semicolon. -/
def currentStatement (tokens : List Token) : List Token :=
  tokens.rtakeWhile fun token => token.kind != .semicolon

/-- The CASE expressions that are open behind tokens, if some are open before them. An END that closes
nothing is ignored. -/
def openCases (depth : Nat) : List Token → Nat
  | [] => depth
  | token :: rest =>
    if token.isKeyword "CASE" then openCases (depth + 1) rest
    else if token.isKeyword "END" then openCases (depth - 1) rest
    else openCases depth rest

/-- A semicolon leaves nothing of a statement behind it. -/
theorem currentStatement_semicolon {token : Token} (ends : token.kind = .semicolon)
    (tokens : List Token) : currentStatement (tokens ++ [token]) = [] :=
  List.rtakeWhile_concat_neg _ _ _ (by simp [ends])

/-- Any other token goes on with its statement. -/
theorem currentStatement_concat {token : Token} (goesOn : token.kind ≠ .semicolon)
    (tokens : List Token) :
    currentStatement (tokens ++ [token]) = currentStatement tokens ++ [token] :=
  List.rtakeWhile_concat_pos _ _ _ (by simpa using goesOn)

/-- Parentheses are counted from the left to the right. -/
theorem openParens_append (depth : Nat) (front back : List Token) :
    openParens depth (front ++ back) = openParens (openParens depth front) back := by
  induction front generalizing depth with
  | nil => rfl
  | cons token front ih =>
    rw [List.cons_append, openParens, openParens]
    split
    · exact ih (depth + 1)
    · exact ih (depth - 1)
    · exact ih depth

/-- CASE expressions are counted from the left to the right. -/
theorem openCases_append (depth : Nat) (front back : List Token) :
    openCases depth (front ++ back) = openCases (openCases depth front) back := by
  induction front generalizing depth with
  | nil => rfl
  | cons token front ih =>
    rw [List.cons_append, openCases, openCases]
    split_ifs
    · exact ih (depth + 1)
    · exact ih (depth - 1)
    · exact ih depth

/-- There is one construct for every parenthesis that is open. -/
theorem Shifts.length_constructs {token : Token} {frame next : Frame}
    (shifts : Shifts token frame next) {tokens : List Token}
    (before : frame.constructs.length = openParens 0 (currentStatement tokens)) :
    next.constructs.length = openParens 0 (currentStatement (tokens ++ [token])) := by
  have counted (goesOn : token.kind ≠ .semicolon) :
      openParens 0 (currentStatement (tokens ++ [token])) =
        openParens frame.constructs.length [token] := by
    rw [currentStatement_concat goesOn, openParens_append, ← before]
  cases shifts with
  | openParen opens kind near =>
    rw [counted (by simp [opens]), openParens_cons_lparen opens]
    rfl
  | closeParen closes innermost =>
    rw [counted (by simp [closes]), openParens_cons_rparen closes, innermost]
    rfl
  | openCase opens near =>
    have word := Token.kind_of_isKeyword opens
    rw [counted (by simp [word]), openParens_cons (by simp [word]) (by simp [word])]
    rfl
  | closeCase closes innermost =>
    have word := Token.kind_of_isKeyword closes
    rw [counted (by simp [word]), openParens_cons (by simp [word]) (by simp [word])]
    rfl
  | statement ends =>
    rw [currentStatement_semicolon ends]
    rfl
  | stays opensNone closesNone goesOn =>
    rw [counted goesOn]
    by_cases closes : token.kind = .rparen
    · rw [openParens_cons_rparen closes, closesNone.1 closes]
      rfl
    · rw [openParens_cons opensNone.1 closes]
      rfl

/-- There is one level for every CASE that is open. -/
theorem Shifts.length_caseLevels {token : Token} {frame next : Frame}
    (shifts : Shifts token frame next) {tokens : List Token}
    (before : frame.caseLevels.length = openCases 0 (currentStatement tokens)) :
    next.caseLevels.length = openCases 0 (currentStatement (tokens ++ [token])) := by
  have counted (goesOn : token.kind ≠ .semicolon) :
      openCases 0 (currentStatement (tokens ++ [token])) =
        openCases frame.caseLevels.length [token] := by
    rw [currentStatement_concat goesOn, openCases_append, ← before]
  have untouched (other : token.kind ≠ .keyword) :
      openCases frame.caseLevels.length [token] = frame.caseLevels.length := by
    simp [openCases, Token.isKeyword_of_kind other]
  cases shifts with
  | openParen opens kind near =>
    rw [counted (by simp [opens]), untouched (by simp [opens])]
  | closeParen closes innermost =>
    rw [counted (by simp [closes]), untouched (by simp [closes])]
  | openCase opens near =>
    rw [counted (by simp [Token.kind_of_isKeyword opens])]
    simp [openCases, opens]
  | closeCase closes innermost =>
    have other : token.isKeyword "CASE" = false := by
      simp [Token.isKeyword, Token.value_of_isKeyword closes]
    rw [counted (by simp [Token.kind_of_isKeyword closes])]
    simp [openCases, closes, other, innermost]
  | statement ends =>
    rw [currentStatement_semicolon ends]
    rfl
  | stays opensNone closesNone goesOn =>
    rw [counted goesOn]
    by_cases closes : token.isKeyword "END" = true
    · simp [openCases, opensNone.2, closes, closesNone.2 closes]
    · simp [openCases, opensNone.2, closes]

/-! ## Breaks behind a block -/

namespace State

/-- Whether a break behind a block is due inside an inline parenthesis only. -/
def BreaksInline (state : State) : Prop :=
  state.afterBlock = true → state.top = some .grouping

/-- A break that is not due is due nowhere. -/
theorem breaksInline_of_false {state : State} (none : state.afterBlock = false) :
    state.BreaksInline := by
  intro due
  rw [none] at due
  cases due

/-- A state with the same parentheses and no new break is as good. -/
theorem BreaksInline.congr {state next : State} (inline : state.BreaksInline)
    (constructs : next.constructs = state.constructs)
    (flag : next.afterBlock = state.afterBlock) : next.BreaksInline := by
  intro due
  rw [top, constructs]
  exact inline (flag.symm.trans due)

/-- A parenthesis takes the break that is due before it. -/
theorem openParen_breaksInline (state : State) (token : Token) (following : List Token) :
    (state.openParen token following).1.BreaksInline := by
  apply breaksInline_of_false
  rw [openParen_eq state token rfl rfl rfl]

/-- A closing parenthesis asks for a break inside an inline parenthesis only. -/
theorem closeParen_breaksInline {state : State} (inline : state.BreaksInline) (token : Token) :
    (state.closeParen token).1.BreaksInline := by
  cases state.closeParen_closing token with
  | multiline innermost lines same =>
    -- The innermost parenthesis has lines of its own, so no break was due before.
    have calm : state.afterBlock = false := by
      rw [Bool.eq_false_iff]
      intro due
      have grouping := inline due
      rw [top, innermost] at grouping
      rw [Option.some.inj grouping] at lines
      cases lines
    rw [same]
    intro due
    simpa only [calm, Bool.false_or, beq_iff_eq, top] using due
  | inline noLines same =>
    rw [same]
    exact breaksInline_of_false rfl

/-- A comma takes the break that is due before it. -/
theorem comma_breaksInline (commas : CommaPosition) (state : State) (token : Token) :
    (comma commas state token).1.BreaksInline :=
  breaksInline_of_false rfl

/-- A token without a layout of its own asks for no break. -/
theorem ordinary_breaksInline {state : State} (inline : state.BreaksInline) (token : Token) :
    (state.ordinary token).1.BreaksInline := by
  cases glued : state.gluesToDot with
  | true =>
    rw [ordinary_glued glued]
    exact inline.congr rfl rfl
  | false =>
    rw [ordinary_apart glued rfl]
    exact breaksInline_of_false rfl

/-- Verbatim text asks for no break. -/
theorem verbatim_breaksInline {state : State} (inline : state.BreaksInline) (token : Token) :
    (state.verbatim token).1.BreaksInline := by
  cases glued : state.gluesToDot with
  | true =>
    rw [verbatim_glued glued]
    exact inline.congr rfl rfl
  | false =>
    rw [verbatim_apart glued]
    exact breaksInline_of_false rfl

/-- A keyword asks for no break. -/
theorem keyword_breaksInline {state : State} (inline : state.BreaksInline) (token : Token)
    (following : List Token) : (state.keyword token following).1.BreaksInline := by
  cases state.keyword_worded token following with
  | openCase opens same =>
    rw [same, openCase_eq]
    exact breaksInline_of_false rfl
  | branch value within same =>
    rw [same, keywordLine_eq]
    exact inline.congr rfl rfl
  | closeCase closes innermost same =>
    rw [same, closeCase_eq]
    exact inline.congr rfl rfl
  | clause notCase noEnd same =>
    rw [same, clause_eq]
    exact inline.congr rfl rfl
  | item notCase noEnd same =>
    rw [same]
    exact ordinary_breaksInline inline token

/-- A step keeps the break behind a block inside an inline parenthesis. -/
theorem step_breaksInline {state : State} (inline : state.BreaksInline) (commas : CommaPosition)
    (token : Token) (following : List Token) :
    (state.step commas token following).1.BreaksInline := by
  have noted : (state.note token).BreaksInline := by
    obtain ⟨inDefinition, awaitsColumns, inFunction, noted⟩ := state.note_eq token
    rw [noted]
    exact inline.congr rfl rfl
  have placed : (state.place commas token following).1.BreaksInline := by
    cases state.place_handled commas token following with
    | comment kind same =>
      rw [same, comment_eq]
      exact inline.congr rfl rfl
    | semicolon kind same =>
      rw [same]
      exact breaksInline_of_false rfl
    | openParen kind same =>
      rw [same]
      exact openParen_breaksInline state token following
    | closeParen kind same =>
      rw [same]
      exact closeParen_breaksInline inline token
    | comma kind same =>
      rw [same]
      exact comma_breaksInline commas state token
    | dot kind same =>
      rw [same]
      exact inline.congr rfl rfl
    | keyword kind same =>
      rw [same]
      exact keyword_breaksInline noted token following
    | verbatim kind same =>
      rw [same]
      exact verbatim_breaksInline inline token
    | ordinary kind same =>
      rw [same]
      exact ordinary_breaksInline inline token
  exact placed.congr rfl rfl

/-! ## The start of a statement -/

/-- Whether a token leaves a statement at its start: the statement has not begun before, the token
opens nothing, and no selection item is newly awaited. -/
structure LeavesStart (state : State) (token : Token) (next : State) : Prop where
  /-- The statement has not begun before. -/
  before : state.statementStart = true
  /-- No selection item is newly awaited. -/
  noItem : next.awaitsFirstItem = state.awaitsFirstItem
  /-- No parenthesis is opened. -/
  noParen : token.kind ≠ .lparen
  /-- No CASE is opened. -/
  noCase : token.isKeyword "CASE" = false

/-- A token that leaves a statement at its start completes a name or has no layout of its own. -/
theorem ordinary_leavesStart {state : State} {token : Token}
    (start : (state.ordinary token).1.statementStart = true) (noParen : token.kind ≠ .lparen)
    (noCase : token.isKeyword "CASE" = false) :
    state.LeavesStart token (state.ordinary token).1 := by
  cases glued : state.gluesToDot with
  | true =>
    rw [ordinary_glued glued] at start ⊢
    exact ⟨start, rfl, noParen, noCase⟩
  | false =>
    rw [ordinary_apart glued rfl] at start
    cases start

/-- Verbatim text leaves a statement at its start if it completes a name. -/
theorem verbatim_leavesStart {state : State} {token : Token}
    (start : (state.verbatim token).1.statementStart = true) (verbatim : token.kind = .dollarString) :
    state.LeavesStart token (state.verbatim token).1 := by
  cases glued : state.gluesToDot with
  | true =>
    rw [verbatim_glued glued] at start ⊢
    exact ⟨start, rfl, by simp [verbatim], Token.isKeyword_of_kind (by simp [verbatim]) _⟩
  | false =>
    rw [verbatim_apart glued] at start
    cases start

/-- A keyword leaves a statement at its start if it completes a name. -/
theorem keyword_leavesStart {state : State} {token : Token} (word : token.kind = .keyword)
    {following : List Token} (start : (state.keyword token following).1.statementStart = true) :
    state.LeavesStart token (state.keyword token following).1 := by
  cases state.keyword_worded token following with
  | openCase opens same =>
    rw [same, openCase_eq] at start
    cases start
  | branch value within same =>
    rw [same, keywordLine_eq] at start
    cases start
  | closeCase closes innermost same =>
    rw [same, closeCase_eq] at start
    cases start
  | clause notCase noEnd same =>
    rw [same, clause_eq] at start
    cases start
  | item notCase noEnd same =>
    rw [same] at start ⊢
    exact ordinary_leavesStart start (by simp [word]) (by simpa [Token.isKeyword, word] using notCase)

/-- A comma leaves a statement where it is. -/
theorem comma_flags (commas : CommaPosition) (state : State) (token : Token) :
    (comma commas state token).1.statementStart = state.statementStart ∧
      (comma commas state token).1.awaitsFirstItem = state.awaitsFirstItem := by
  rcases state.comma_separates commas token with ⟨-, same⟩ | ⟨-, -, same⟩ | ⟨-, -, same⟩ <;>
    rw [same] <;> exact ⟨rfl, rfl⟩

/-- A closing parenthesis leaves a statement where it is. -/
theorem closeParen_flags (state : State) (token : Token) :
    (state.closeParen token).1.statementStart = state.statementStart ∧
      (state.closeParen token).1.awaitsFirstItem = state.awaitsFirstItem := by
  rcases state.closeParen_closing token with ⟨-, -, same⟩ | ⟨-, same⟩ <;> rw [same] <;>
    exact ⟨rfl, rfl⟩

/-- A statement begins with its first clause, item or parenthesis. -/
theorem place_leavesStart {commas : CommaPosition} {state : State} {token : Token}
    (goesOn : token.kind ≠ .semicolon) {following : List Token}
    (start : (state.place commas token following).1.statementStart = true) :
    state.LeavesStart token (state.place commas token following).1 := by
  have kept {next : State} (flags : next.statementStart = state.statementStart ∧
      next.awaitsFirstItem = state.awaitsFirstItem) (start : next.statementStart = true)
      (noParen : token.kind ≠ .lparen) (noWord : token.kind ≠ .keyword) :
      state.LeavesStart token next :=
    ⟨flags.1.symm.trans start, flags.2, noParen, Token.isKeyword_of_kind noWord _⟩
  cases state.place_handled commas token following with
  | comment kind same =>
    rw [same, comment_eq] at start ⊢
    exact kept ⟨rfl, rfl⟩ start (Token.kind_ne_of_isComment kind rfl)
      (Token.kind_ne_of_isComment kind rfl)
  | semicolon kind same => exact absurd kind goesOn
  | openParen kind same =>
    rw [same, openParen_eq state token rfl rfl rfl] at start
    cases start
  | closeParen kind same =>
    rw [same] at start ⊢
    exact kept (closeParen_flags state token) start (by simp [kind]) (by simp [kind])
  | comma kind same =>
    rw [same] at start ⊢
    exact kept (comma_flags commas state token) start (by simp [kind]) (by simp [kind])
  | dot kind same =>
    rw [same] at start ⊢
    exact kept ⟨rfl, rfl⟩ start (by simp [kind]) (by simp [kind])
  | keyword kind same =>
    rw [same] at start ⊢
    obtain ⟨before, noItem, noParen, noCase⟩ := keyword_leavesStart kind start
    obtain ⟨-, -, sameItem, -⟩ := state.note_same token
    exact ⟨(state.note_statementStart token).symm.trans before, noItem.trans sameItem, noParen, noCase⟩
  | verbatim kind same =>
    rw [same] at start ⊢
    exact verbatim_leavesStart start kind
  | ordinary kind same =>
    rw [same] at start ⊢
    exact ordinary_leavesStart start (Kind.ne_of_isOrdinary kind rfl)
      (Token.isKeyword_of_kind (Kind.ne_of_isOrdinary kind rfl) _)

end State

/-! ## One token -/

/-- Whether a state fits the tokens that were laid out before it and the text that they were written
as. -/
structure Consistent (tokens : List Token) (text : List Char) (state : State) : Prop where
  /-- Clauses are not before the margin. -/
  level : 0 ≤ state.indentLevel
  /-- No open parenthesis holds a level before the margin. -/
  constructLevels : ∀ construct ∈ state.constructs,
    0 ≤ construct.outerLevel ∧ 0 ≤ construct.columnLevel
  /-- A closing parenthesis on a line of its own is at the level that holds behind it, or one beyond. -/
  column : ∀ construct ∈ state.constructs, construct.columnLevel = construct.outerLevel ∨
    construct.columnLevel = construct.outerLevel + 1
  /-- No open CASE holds a level before the margin. -/
  caseLevels : ∀ level ∈ state.caseLevels, 0 ≤ level
  /-- There is one construct for every parenthesis that the statement has left open. -/
  parens : state.constructs.length = openParens 0 (currentStatement tokens)
  /-- There is one level for every CASE that the statement has left open. -/
  cases : state.caseLevels.length = openCases 0 (currentStatement tokens)
  /-- A line that has just begun is the first one, or follows a line feed. -/
  line : state.lineStart = true → text = [] ∨ text.getLast? = some '\n'
  /-- A break behind a block is due inside an inline parenthesis only. -/
  block : state.afterBlock = true → state.top = some .grouping
  /-- At the start of a statement nothing is open, indented or due. -/
  start : state.statementStart = true → state.constructs = [] ∧ state.caseLevels = [] ∧
    state.indentLevel = 0 ∧ state.awaitsFirstItem = false ∧ state.afterBlock = false

namespace Consistent

/-- The levels of a consistent state count from the margin. -/
theorem grounded {tokens : List Token} {text : List Char} {state : State}
    (consistent : Consistent tokens text state) : state.frame.Grounded where
  level := consistent.level
  outer := fun construct member => (consistent.constructLevels construct member).1
  column := consistent.column
  cases := consistent.caseLevels

/-- A fresh state is consistent before anything is written. -/
theorem initial : Consistent [] [] {} where
  level := Int.le_refl 0
  constructLevels := nofun
  column := nofun
  caseLevels := nofun
  parens := rfl
  cases := rfl
  line := fun _ => Or.inl rfl
  block := nofun
  start := fun _ => ⟨rfl, rfl, rfl, rfl, rfl⟩

/-- Where nothing has begun, a token that leaves the statement at its start changes no level. -/
theorem frame_of_leavesStart {tokens : List Token} {text : List Char} {state next : State}
    (consistent : Consistent tokens text state) {token : Token}
    (leaves : state.LeavesStart token next) (shifts : Shifts token state.frame next.frame) :
    next.frame = ⟨0, [], []⟩ := by
  obtain ⟨noConstruct, noCase, margin, -, -⟩ := consistent.start leaves.before
  have fresh : state.frame = ⟨0, [], []⟩ := by
    rw [State.frame, noConstruct, noCase, margin]
  rw [fresh] at shifts
  generalize next.frame = frame at shifts
  cases shifts with
  | openParen opens kind near => exact absurd opens leaves.noParen
  | closeParen closes innermost => cases innermost
  | openCase opens near =>
    rw [leaves.noCase] at opens
    cases opens
  | closeCase closes innermost => cases innermost
  | statement ends => rfl
  | stays opensNone closesNone goesOn => rfl

/-- A step keeps a state consistent. -/
theorem step {tokens : List Token} {text : List Char} {state : State}
    (consistent : Consistent tokens text state) (options : Options) (commas : CommaPosition)
    (token : Token) (following : List Token) :
    Consistent (tokens ++ [token])
      (text ++ writtenText options (state.step commas token following).2)
      (state.step commas token following).1 := by
  have shifts := state.step_shifts commas token following
  have grounded := shifts.grounded consistent.grounded
  have inline := State.step_breaksInline consistent.block commas token following
  refine
    { level := grounded.level
      constructLevels := fun construct member => ?_
      column := grounded.column
      caseLevels := grounded.cases
      parens := shifts.length_constructs consistent.parens
      cases := shifts.length_caseLevels consistent.cases
      line := fun begun => Or.inr ?_
      block := inline
      start := fun start => ?_ }
  · have outer := grounded.outer construct member
    have near := grounded.column construct member
    exact ⟨outer, by omega⟩
  · obtain ⟨before, breaks, -, pieces, rests⟩ :=
      State.step_spaced consistent.grounded commas token following
    have broken : 0 < breaks := of_decide_eq_true (rests.line.symm.trans begun)
    obtain ⟨more, rfl⟩ : ∃ more, breaks = more + 1 := ⟨breaks - 1, by omega⟩
    rw [pieces, List.replicate_succ', ← List.cons_append, ← List.append_assoc, writtenText_append,
      ← List.append_assoc]
    exact List.getLast?_concat
  · by_cases ends : token.kind = .semicolon
    · have fresh : (state.step commas token following).1 = { last := some token } := by
        rw [State.step, State.place, ends]
        rfl
      rw [fresh]
      exact ⟨rfl, rfl, rfl, rfl, rfl⟩
    · have leaves : state.LeavesStart token (state.step commas token following).1 := by
        obtain ⟨before, noItem, noParen, noCase⟩ := State.place_leavesStart ends start
        exact ⟨before, noItem, noParen, noCase⟩
      have frame := consistent.frame_of_leavesStart leaves shifts
      have noConstruct := congrArg Frame.constructs frame
      obtain ⟨-, -, -, noItem, -⟩ := consistent.start leaves.before
      refine ⟨noConstruct, congrArg Frame.caseLevels frame, congrArg Frame.level frame,
        leaves.noItem.trans noItem, ?_⟩
      rw [Bool.eq_false_iff]
      intro due
      have grouping := inline due
      rw [State.top, show State.constructs _ = [] from noConstruct] at grouping
      cases grouping

end Consistent

/-! ## A whole course -/

/-- The state behind a walk that starts afresh is consistent. -/
theorem Walk.consistent {commas : CommaPosition} {entries : List Entry}
    (walk : Walk commas {} entries) (options : Options) :
    Consistent (entries.map Entry.token) (writtenText options (entries.flatMap Entry.pieces))
      (({} : State).after entries) := by
  refine walk.invariant (fun past state => Consistent (past.map Entry.token)
    (writtenText options (past.flatMap Entry.pieces)) state) ?_ [] Consistent.initial
  intro past state entry leaves consistent
  obtain ⟨following, step⟩ := leaves.step
  have next := consistent.step options commas entry.token following
  rw [step] at next
  rw [List.map_append, List.flatMap_append, writtenText_append, List.flatMap_singleton]
  exact next

/-- The state behind every token of a course is consistent with the tokens laid out so far and with
the text written for them, whatever the options. -/
theorem course_consistent (options : Options) (tokens : List Token) {past later : List Entry}
    {entry : Entry} (split : course options.commaPosition tokens = past ++ entry :: later) :
    Consistent ((past ++ [entry]).map Entry.token)
      (writtenText options ((past ++ [entry]).flatMap Entry.pieces)) entry.state := by
  have walk := walk_courseFrom options.commaPosition {} tokens
  rw [← course, split, List.append_cons] at walk
  have consistent := walk.append.1.consistent options
  rwa [State.after_append] at consistent

/-- A query is laid out up to a block that has just closed inside a call, with a CASE left open before
it: the state awaits a break, and has one parenthesis and one CASE open. -/
theorem course_consistent_query :
    ∃ (past : List Entry) (entry : Entry),
      course .leading (fuse (tokenize "select 1; case f(x, (select a from t)")) = past ++ [entry] ∧
      entry.state.afterBlock = true ∧ entry.state.constructs.length = 1 ∧
      entry.state.caseLevels.length = 1 ∧
      Consistent ((past ++ [entry]).map Entry.token)
        (writtenText ⟨3, .lower, .leading⟩ ((past ++ [entry]).flatMap Entry.pieces)) entry.state := by
  have split := (List.dropLast_append_getLast
    (l := course .leading (fuse (tokenize "select 1; case f(x, (select a from t)")))
    (by decide +kernel)).symm
  exact ⟨_, _, split, by decide +kernel, by decide +kernel, by decide +kernel,
    course_consistent ⟨3, .lower, .leading⟩ _ split⟩

end SqlLayout
