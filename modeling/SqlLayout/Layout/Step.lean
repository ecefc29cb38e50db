import SqlLayout.Layout.State

/-!
# Laying out one token

Every token is written once. The pieces before it either break the line and indent the next one,
or put a single space between it and the token before, or nothing; the pieces behind it are line
breaks only.
-/

namespace SqlLayout

/-- The next state and the pieces of one token. -/
abbrev Step := State × List Piece

namespace State

/-! ## Breaks before a token -/

/-- Ends the current line, if something stands on it. -/
def freshLine (state : State) : Step :=
  if state.lineStart then (state, []) else ({ state with lineStart := true }, [.newline])

/-- Takes the break that is due behind a closed block. -/
def takeBlockBreak (state : State) : Step :=
  if state.afterBlock then { state with afterBlock := false }.freshLine else (state, [])

/-- Takes the break that is due before the first selection item. -/
def takeItemBreak (state : State) : Step :=
  if state.awaitsFirstItem then { state with awaitsFirstItem := false }.freshLine else (state, [])

/-- Takes every break that is due. -/
def takeBreaks (state : State) : Step :=
  let (state, first) := state.takeItemBreak
  let (state, second) := state.takeBlockBreak
  (state, first ++ second)

/-- What stands before an ordinary token: the indentation of its line, or a space that keeps it
apart from a token other than an opening parenthesis. -/
def lead (state : State) : List Piece :=
  if state.lineStart then [.indent (state.indentLevel + state.contentLevel)]
  else if state.follows .lparen then []
  else [.space]

/-- Whether the next token completes a qualified name. -/
def gluesToDot (state : State) : Bool :=
  state.follows .dot && !state.lineStart

/-! ## What a statement defines -/

/-- Takes note of what a keyword says about the statement. -/
def noteDefinition (state : State) (value : String) : State :=
  if Keyword.definers.contains value then { state with inDefinition := true }
  else if state.inDefinition then
    if value = "TABLE" ∨ value = "VIEW" then { state with awaitsColumns := true }
    else if value = "FUNCTION" then { state with inFunction := true }
    else if value = "AS" then { state with awaitsColumns := false, inDefinition := false }
    else state
  else state

/-- Takes note of whether a keyword announces or rules out a block of columns. -/
def noteColumns (state : State) (value : String) : State :=
  if value = "TBLPROPERTIES" then { state with awaitsColumns := true }
  else if Keyword.clauses.contains value then { state with awaitsColumns := false }
  else state

/-- Takes note of a token before it is laid out. -/
def note (state : State) (token : Token) : State :=
  if token.kind = .keyword then (state.noteDefinition token.value).noteColumns token.value
  else state

/-! ## Comments -/

/-- Whether a comment follows directly on what it belongs to, without a blank line. -/
def groupsComment (state : State) : Bool :=
  state.last.any fun token =>
    token.kind == .comma || token.kind == .lparen || token.isComment || token.isKeyword "CASE"

/-- The levels that a comment is indented beyond the clauses around it: those of the token that it
precedes. -/
def commentLevel (state : State) (following : List Token) : Int :=
  match nextMeaningful following with
  | none => state.contentLevel
  | some token =>
    if token.kind = .keyword then
      if (token.value = "WHEN" ∨ token.value = "ELSE") ∧ state.caseLevels ≠ [] then 1
      else if token.value = "END" ∧ state.caseLevels ≠ [] then 0
      else if token.value = "ON" then 1
      else if Keyword.clauses.contains token.value then 0
      else state.contentLevel
    else state.contentLevel

/-- A comment has its line to itself. -/
def comment (state : State) (token : Token) (following : List Token) : Step :=
  let (state, broken) := state.freshLine
  let blankLine := if state.statementStart || state.groupsComment then [] else [.newline]
  (state, broken ++ blankLine ++
    [.indent (state.indentLevel + state.commentLevel following), .word token, .newline])

/-! ## Parentheses -/

/-- Whether an opening parenthesis behind the last token holds the arguments of a call. -/
def followsCallee (state : State) : Bool :=
  state.last.any fun token =>
    match token.kind with
    | .identifier | .backtick => true
    | .keyword =>
      !Keyword.clauses.contains token.value && !Keyword.operandIntroducers.contains token.value
    | _ => false

/-- Why a parenthesis before the given tokens is opened. -/
def classify (state : State) (following : List Token) : ConstructKind :=
  if (nextSignificant following).any (Token.isKeywordOf Keyword.clauses) then .subquery
  else if state.awaitsColumns then .block
  else if state.last.any (Token.isKeywordOf Keyword.concats) && 2 < argumentCount following then
    .concat
  else .grouping

/-- What stands before an opening parenthesis within a line. -/
def parenGap (state : State) : ConstructKind → List Piece
  | .subquery | .block => if state.follows .lparen then [] else [.space]
  | .concat => []
  | .grouping => if state.follows .lparen || state.followsCallee then [] else [.space]

/-- Opens a parenthesis. -/
def openParen (state : State) (token : Token) (following : List Token) : Step :=
  let kind := state.classify following
  let (state, broken) :=
    (if kind = .block then { state with awaitsColumns := false } else state).takeBreaks
  let column := state.indentLevel + (if state.lineStart then state.contentLevel else 0)
  let gap := if state.lineStart then [.indent column] else state.parenGap kind
  let opened := { state with
    statementStart := false
    constructs := ⟨kind, state.indentLevel, column⟩ :: state.constructs }
  if kind.isMultiline then
    ({ opened with indentLevel := column + 1, lineStart := true },
      broken ++ gap ++ [.word token, .newline])
  else ({ opened with lineStart := false }, broken ++ gap ++ [.word token])

/-- Closes an inline parenthesis, or writes one that nothing opened. -/
def closeInline (state : State) (token : Token) : Step :=
  ({ state with afterBlock := false, lineStart := false },
    (if state.lineStart then [.indent state.indentLevel] else []) ++ [.word token])

/-- Closes a parenthesis whose contents have lines of their own. What follows it inside an inline
parenthesis goes on a new line. -/
def closeMultiline (state : State) (construct : Construct) (token : Token) : Step :=
  let (state, broken) := { state with indentLevel := construct.outerLevel }.freshLine
  ({ state with
      afterBlock := state.afterBlock || state.top == some .grouping
      lineStart := false },
    broken ++ [.indent construct.columnLevel, .word token])

/-- Closes the innermost parenthesis. -/
def closeParen (state : State) (token : Token) : Step :=
  match state.constructs with
  | [] => state.closeInline token
  | construct :: outer =>
    let state := { state with constructs := outer }
    if construct.kind.isMultiline then state.closeMultiline construct token
    else state.closeInline token

/-! ## Marks -/

/-- A semicolon ends the statement, with a blank line behind it. -/
def semicolon (state : State) (token : Token) : Step :=
  (state.nextStatement, [.word token, .newline, .newline])

/-- A comma stays inline in an inline parenthesis; elsewhere every item has its own line. -/
def comma (commas : CommaPosition) (state : State) (token : Token) : Step :=
  let (next, pieces) : Step :=
    if state.top == some .grouping && !state.afterBlock then
      ({ state with lineStart := false }, [.word token])
    else if commas = .trailing then ({ state with lineStart := true }, [.word token, .newline])
    else
      let (state, broken) := state.freshLine
      ({ state with lineStart := false }, broken ++ [.indent state.indentLevel, .word token])
  ({ next with afterBlock := false }, pieces)

/-- A dot follows its left side directly. -/
def dot (state : State) (token : Token) : Step :=
  ({ state with lineStart := false }, [.word token])

/-! ## Words and literals -/

/-- A keyword at the start of a line, the given number of levels beyond the clauses around it. -/
def keywordLine (state : State) (token : Token) (extra : Int) : Step :=
  let (state, broken) := state.freshLine
  ({ state with lineStart := false, statementStart := false },
    broken ++ [.indent (state.indentLevel + extra), .word token])

/-- A CASE starts a line, and its WHEN, ELSE and END are placed relative to it. -/
def openCase (state : State) (token : Token) : Step :=
  { state with
    awaitsFirstItem := false
    afterBlock := false
    caseLevels := state.indentLevel :: state.caseLevels
    indentLevel := state.indentLevel + state.contentLevel }.keywordLine token 0

/-- A token without a layout of its own. -/
def ordinary (state : State) (token : Token) : Step :=
  if state.gluesToDot then ({ state with lineStart := false }, [.word token])
  else
    let staysWithSelect := token.isKeyword "DISTINCT" || token.isKeyword "ALL"
    let (state, broken) := if staysWithSelect then state.takeBlockBreak else state.takeBreaks
    ({ state with lineStart := false, statementStart := false },
      broken ++ state.lead ++ [.word token])

/-- Text that is written exactly as it stands. A body that starts with a line break of its own
needs no space before it. -/
def verbatim (state : State) (token : Token) : Step :=
  if state.gluesToDot then ({ state with lineStart := false }, [.word token])
  else
    let (state, broken) := state.takeBreaks
    let startsLine := token.value.toList.head?.any fun c => c == '\n' || c == '\r'
    let gap := if !state.lineStart && startsLine then [] else state.lead
    ({ state with lineStart := false, statementStart := false },
      broken ++ gap ++ [.word token])

/-- A clause keyword; a SELECT with more than one item puts the first of them on a new line. -/
def clause (state : State) (token : Token) (following : List Token) : Step :=
  let (next, pieces) := state.keywordLine token (if token.value = "ON" then 1 else 0)
  if token.value = "SELECT" then
    ({ next with awaitsFirstItem := 1 < selectionCount following }, pieces)
  else (next, pieces)

/-- An END closes the innermost CASE. -/
def closeCase (state : State) (token : Token) (level : Int) (outer : List Int) : Step :=
  let (next, pieces) := state.keywordLine token 0
  ({ next with indentLevel := level, caseLevels := outer }, pieces)

/-- A keyword, by what it means where it stands. -/
def keyword (state : State) (token : Token) (following : List Token) : Step :=
  if token.value = "CASE" then state.openCase token
  else if (token.value = "WHEN" ∨ token.value = "ELSE") ∧ state.caseLevels ≠ [] then
    state.keywordLine token 1
  else match token.value, state.caseLevels with
    | "END", level :: outer => state.closeCase token level outer
    | value, _ =>
      if Keyword.clauses.contains value || (value == "COMMENT" && state.inFunction) then
        state.clause token following
      else state.ordinary token

/-! ## Any token -/

/-- Lays out a token that is neither layout nor the end, before the given tokens. -/
def place (commas : CommaPosition) (state : State) (token : Token) (following : List Token) :
    Step :=
  match token.kind with
  | .comment | .blockComment => state.comment token following
  | .semicolon => state.semicolon token
  | .lparen => state.openParen token following
  | .rparen => state.closeParen token
  | .comma => comma commas state token
  | .dot => state.dot token
  | .keyword => (state.note token).keyword token following
  | .dollarString => state.verbatim token
  | _ => state.ordinary token

/-- Lays out a token and remembers it. -/
def step (commas : CommaPosition) (state : State) (token : Token) (following : List Token) :
    Step :=
  let (next, pieces) := state.place commas token following
  ({ next with last := some token }, pieces)

end State

end SqlLayout
