import Mathlib.Tactic.SplitIfs
import SqlLayout.Layout

/-!
# The handlers of tokens

A token is laid out by the handler of its kind (`State.place_handled`), a keyword by that of what it
means where it stands (`State.keyword_worded`), a closing parenthesis by what it closes
(`State.closeParen_closing`), and a comma by what it separates (`State.comma_separates`). What a handler
does is an equation: the fields of the state that it sets, and the pieces before and behind the token.
What a step keeps is proved by these cases.
-/

namespace SqlLayout

/-- Whether tokens of a kind have no layout of their own: names, literals and operators. -/
def Kind.isOrdinary : Kind → Bool
  | .comment | .blockComment | .semicolon | .lparen | .rparen | .comma | .dot | .keyword
  | .dollarString => false
  | _ => true

/-- A kind without a layout of its own is none that has one. -/
theorem Kind.ne_of_isOrdinary {kind other : Kind} (plain : kind.isOrdinary = true)
    (special : other.isOrdinary = false) : kind ≠ other := by
  rintro rfl
  rw [special] at plain
  cases plain

namespace Token

/-- A comment is of no kind but those of comments. -/
theorem kind_ne_of_isComment {token : Token} (comment : token.isComment = true) {kind : Kind}
    (other : kind.isComment = false) : token.kind ≠ kind := by
  intro same
  rw [isComment, same, other] at comment
  cases comment

/-- A token of another kind is no keyword. -/
theorem isKeyword_of_kind {token : Token} (other : token.kind ≠ .keyword) (word : String) :
    token.isKeyword word = false := by
  rw [isKeyword, beq_false_of_ne other, Bool.false_and]

end Token

namespace State

/-! ## Breaks before a token -/

/-- A fresh line breaks the current one if something stands on it. -/
theorem freshLine_eq (state : State) :
    state.freshLine =
      ({ state with lineStart := true }, if state.lineStart then [] else [.newline]) := by
  unfold freshLine
  cases h : state.lineStart with
  | false => rfl
  | true =>
    have same : { state with lineStart := true } = state := by rw [← h]
    rw [same]
    rfl

/-- The break behind a block is written if something stands on the line. -/
theorem takeBlockBreak_eq (state : State) :
    state.takeBlockBreak =
      ({ state with afterBlock := false, lineStart := state.lineStart || state.afterBlock },
        if state.afterBlock && !state.lineStart then [.newline] else []) := by
  obtain ⟨level, lineStart, statementStart, constructs, caseLevels, inDefinition, awaitsColumns,
    inFunction, afterBlock, awaitsFirstItem, last⟩ := state
  cases afterBlock <;> cases lineStart <;> rfl

/-- Breaks that are due are written as one, if something stands on the line. -/
theorem takeBreaks_eq (state : State) :
    state.takeBreaks =
      ({ state with
          awaitsFirstItem := false
          afterBlock := false
          lineStart := state.lineStart || state.awaitsFirstItem || state.afterBlock },
        if (state.awaitsFirstItem || state.afterBlock) && !state.lineStart then [.newline]
        else []) := by
  obtain ⟨level, lineStart, statementStart, constructs, caseLevels, inDefinition, awaitsColumns,
    inFunction, afterBlock, awaitsFirstItem, last⟩ := state
  cases awaitsFirstItem <;> cases afterBlock <;> cases lineStart <;> rfl

/-! ## What a statement defines -/

/-- A keyword says what the statement defines and whether it has columns, and nothing else. -/
theorem note_eq (state : State) (token : Token) :
    ∃ inDefinition awaitsColumns inFunction, state.note token =
      { state with
        inDefinition := inDefinition
        awaitsColumns := awaitsColumns
        inFunction := inFunction } := by
  have definition (state : State) (value : String) : state.noteDefinition value =
      { state with
        inDefinition := (state.noteDefinition value).inDefinition
        awaitsColumns := (state.noteDefinition value).awaitsColumns
        inFunction := (state.noteDefinition value).inFunction } := by
    unfold noteDefinition
    split_ifs <;> rfl
  have columns (state : State) (value : String) : state.noteColumns value =
      { state with awaitsColumns := (state.noteColumns value).awaitsColumns } := by
    unfold noteColumns
    split_ifs <;> rfl
  unfold note
  split
  · rw [columns, definition]
    exact ⟨_, _, _, rfl⟩
  · exact ⟨_, _, _, rfl⟩

/-- What a keyword says about a statement does not change the line. -/
theorem note_same (state : State) (token : Token) :
    (state.note token).lineStart = state.lineStart ∧ (state.note token).last = state.last ∧
      (state.note token).awaitsFirstItem = state.awaitsFirstItem ∧
      (state.note token).afterBlock = state.afterBlock := by
  obtain ⟨inDefinition, awaitsColumns, inFunction, noted⟩ := state.note_eq token
  rw [noted]
  exact ⟨rfl, rfl, rfl, rfl⟩

/-- What a keyword says about a statement leaves the levels of lines alone. -/
theorem note_levels (state : State) (token : Token) :
    (state.note token).indentLevel = state.indentLevel ∧
      (state.note token).caseLevels = state.caseLevels := by
  obtain ⟨inDefinition, awaitsColumns, inFunction, noted⟩ := state.note_eq token
  rw [noted]
  exact ⟨rfl, rfl⟩

/-- What a keyword says about a statement does not begin it. -/
theorem note_statementStart (state : State) (token : Token) :
    (state.note token).statementStart = state.statementStart := by
  obtain ⟨inDefinition, awaitsColumns, inFunction, noted⟩ := state.note_eq token
  rw [noted]

/-! ## Comments -/

/-- A comment begins a fresh line, behind a blank one where it starts a paragraph, and ends it. -/
theorem comment_eq (state : State) (token : Token) (following : List Token) :
    state.comment token following =
      ({ state with lineStart := true },
        state.freshLine.2 ++ (if state.statementStart || state.groupsComment then [] else [.newline]) ++
          [.indent (state.indentLevel + state.commentLevel following), .word token, .newline]) := by
  rw [comment, freshLine_eq]
  rfl

/-! ## Parentheses -/

/-- An opening parenthesis takes every break that is due. At the start of a line it is indented like an
item, and what it holds is a level beyond it, if that has lines of its own. -/
theorem openParen_eq (state : State) (token : Token) {following : List Token} {kind : ConstructKind}
    (classified : state.classify following = kind) {begun : Bool}
    (starts : (state.lineStart || state.awaitsFirstItem || state.afterBlock) = begun) {column : Int}
    (placed : state.indentLevel + (if begun then state.contentLevel else 0) = column) :
    state.openParen token following =
      ({ state with
          awaitsColumns := if kind = .block then false else state.awaitsColumns
          awaitsFirstItem := false
          afterBlock := false
          statementStart := false
          constructs := ⟨kind, state.indentLevel, column⟩ :: state.constructs
          indentLevel := if kind.isMultiline then column + 1 else state.indentLevel
          lineStart := kind.isMultiline },
        (if (state.awaitsFirstItem || state.afterBlock) && !state.lineStart then [.newline] else []) ++
          (if begun then [.indent column] else state.parenGap kind) ++
          .word token :: if kind.isMultiline then [.newline] else []) := by
  subst placed starts
  unfold openParen
  rw [classified]
  obtain ⟨level, lineStart, statementStart, constructs, caseLevels, inDefinition, awaitsColumns,
    inFunction, afterBlock, awaitsFirstItem, last⟩ := state
  cases kind <;> cases lineStart <;> cases awaitsFirstItem <;> cases afterBlock <;> rfl

/-- What a closing parenthesis does, by what it closes. -/
inductive Closing (state : State) (token : Token) (result : Step) : Prop
  /-- One that closes a block with lines of its own has its line to begin, and its level holds again. -/
  | multiline {construct : Construct} {outer : List Construct}
    (innermost : state.constructs = construct :: outer)
    (lines : construct.kind.isMultiline = true)
    (same : result =
      ({ state with
          constructs := outer
          indentLevel := construct.outerLevel
          afterBlock := state.afterBlock || outer.head?.map Construct.kind == some .grouping
          lineStart := false },
        state.freshLine.2 ++ [.indent construct.columnLevel, .word token]))
  /-- One that closes an inline parenthesis, or nothing, goes on with its line. -/
  | inline (noLines : ∀ construct outer, state.constructs = construct :: outer →
      construct.kind.isMultiline = false)
    (same : result =
      ({ state with constructs := state.constructs.tail, afterBlock := false, lineStart := false },
        (if state.lineStart then [.indent state.indentLevel] else []) ++ [.word token]))

/-- A parenthesis that closes a block with lines of its own starts a line. -/
theorem closeParen_multiline {state : State} {construct : Construct} {outer : List Construct}
    (innermost : state.constructs = construct :: outer) (lines : construct.kind.isMultiline = true)
    (token : Token) :
    state.closeParen token =
      ({ state with
          constructs := outer
          indentLevel := construct.outerLevel
          afterBlock := state.afterBlock || outer.head?.map Construct.kind == some .grouping
          lineStart := false },
        state.freshLine.2 ++ [.indent construct.columnLevel, .word token]) := by
  rw [closeParen, innermost]
  dsimp only
  rw [if_pos lines, closeMultiline, freshLine_eq, freshLine_eq]
  rfl

/-- A parenthesis that closes no block with lines of its own stays on its line. -/
theorem closeParen_inline {state : State}
    (noLines : ∀ construct outer, state.constructs = construct :: outer →
      construct.kind.isMultiline = false) (token : Token) :
    state.closeParen token =
      ({ state with constructs := state.constructs.tail, afterBlock := false, lineStart := false },
        (if state.lineStart then [.indent state.indentLevel] else []) ++ [.word token]) := by
  rw [closeParen]
  split
  · rename_i none
    rw [none, List.tail_nil, ← none]
    rfl
  · rename_i construct outer innermost
    dsimp only
    rw [noLines construct outer innermost, innermost]
    rfl

/-- A closing parenthesis closes the innermost one that is open. -/
theorem closeParen_closing (state : State) (token : Token) :
    state.Closing token (state.closeParen token) := by
  by_cases block : ∃ construct outer, state.constructs = construct :: outer ∧
      construct.kind.isMultiline = true
  · obtain ⟨construct, outer, innermost, lines⟩ := block
    exact Closing.multiline innermost lines (closeParen_multiline innermost lines token)
  · have noLines (construct : Construct) (outer : List Construct)
        (innermost : state.constructs = construct :: outer) : construct.kind.isMultiline = false :=
      Bool.eq_false_iff.2 fun lines => block ⟨construct, outer, innermost, lines⟩
    exact Closing.inline noLines (closeParen_inline noLines token)

/-! ## Commas -/

/-- What a comma does, by where it stands. -/
inductive Separates (state : State) (commas : CommaPosition) (token : Token) (result : Step) : Prop
  /-- In an inline parenthesis it goes on with the line. -/
  | inline (inside : (state.top == some .grouping && !state.afterBlock) = true)
    (same : result = ({ state with lineStart := false, afterBlock := false }, [.word token]))
  /-- Elsewhere it ends the line, if commas trail. -/
  | trailing (outside : ¬ (state.top == some .grouping && !state.afterBlock) = true)
    (position : commas = .trailing)
    (same : result = ({ state with lineStart := true, afterBlock := false }, [.word token, .newline]))
  /-- Otherwise it starts one. -/
  | leading (outside : ¬ (state.top == some .grouping && !state.afterBlock) = true)
    (position : commas ≠ .trailing)
    (same : result =
      ({ state with lineStart := false, afterBlock := false },
        state.freshLine.2 ++ [.indent state.indentLevel, .word token]))

/-- A comma separates items inline or by lines. -/
theorem comma_separates (commas : CommaPosition) (state : State) (token : Token) :
    state.Separates commas token (comma commas state token) := by
  unfold comma
  by_cases inside : (state.top == some .grouping && !state.afterBlock) = true
  · rw [if_pos inside]
    exact Separates.inline inside rfl
  rw [if_neg inside]
  by_cases trailing : commas = .trailing
  · rw [if_pos trailing]
    exact Separates.trailing inside trailing rfl
  · rw [if_neg trailing, freshLine_eq]
    exact Separates.leading inside trailing (by rw [freshLine_eq])

/-! ## Words and literals -/

/-- A keyword at the start of a line breaks the line that something stands on. -/
theorem keywordLine_eq (state : State) (token : Token) (extra : Int) :
    state.keywordLine token extra =
      ({ state with lineStart := false, statementStart := false },
        state.freshLine.2 ++ [.indent (state.indentLevel + extra), .word token]) := by
  rw [keywordLine, freshLine_eq]

/-- A CASE starts a line at the level of its contents. -/
theorem openCase_eq (state : State) (token : Token) :
    state.openCase token =
      ({ state with
          awaitsFirstItem := false
          afterBlock := false
          statementStart := false
          caseLevels := state.indentLevel :: state.caseLevels
          indentLevel := state.indentLevel + state.contentLevel
          lineStart := false },
        state.freshLine.2 ++ [.indent (state.indentLevel + state.contentLevel), .word token]) := by
  rw [openCase, keywordLine_eq, Int.add_zero, freshLine_eq, freshLine_eq]

/-- An END starts a line at the level of its CASE, and the level around the CASE holds again. -/
theorem closeCase_eq (state : State) (token : Token) (level : Int) (outer : List Int) :
    state.closeCase token level outer =
      ({ state with
          statementStart := false
          caseLevels := outer
          indentLevel := level
          lineStart := false },
        state.freshLine.2 ++ [.indent state.indentLevel, .word token]) := by
  rw [closeCase, keywordLine_eq, Int.add_zero]

/-- A clause starts a line, and a SELECT says whether its first item is to start one. -/
theorem clause_eq (state : State) (token : Token) (following : List Token) :
    state.clause token following =
      ({ state with
          statementStart := false
          awaitsFirstItem :=
            if token.value = "SELECT" then 1 < selectionCount following else state.awaitsFirstItem
          lineStart := false },
        state.freshLine.2 ++
          [.indent (state.indentLevel + if token.value = "ON" then 1 else 0), .word token]) := by
  rw [clause, keywordLine_eq]
  dsimp only
  split <;> rfl

/-- A token that completes a name goes on with it. -/
theorem ordinary_glued {state : State} (glued : state.gluesToDot = true) (token : Token) :
    state.ordinary token = ({ state with lineStart := false }, [.word token]) :=
  if_pos glued

/-- Any other token without a layout of its own takes the breaks that are due, but one that stays with
its SELECT leaves the break before the first item to the next token. -/
theorem ordinary_apart {state : State} (apart : state.gluesToDot = false) {token : Token}
    {stays : Bool} (word : (token.isKeyword "DISTINCT" || token.isKeyword "ALL") = stays) :
    state.ordinary token =
      ({ state with
          awaitsFirstItem := stays && state.awaitsFirstItem
          afterBlock := false
          statementStart := false
          lineStart := false },
        (if (!stays && state.awaitsFirstItem || state.afterBlock) && !state.lineStart then [.newline]
          else []) ++
          { state with
            lineStart := state.lineStart || (!stays && state.awaitsFirstItem || state.afterBlock) }.lead ++
          [.word token]) := by
  rw [ordinary, if_neg (by simp [apart]), word]
  cases stays with
  | true =>
    rw [takeBlockBreak_eq]
    rfl
  | false =>
    rw [takeBreaks_eq]
    dsimp only
    rw [Bool.or_assoc]
    rfl

/-- Verbatim text that completes a name goes on with it. -/
theorem verbatim_glued {state : State} (glued : state.gluesToDot = true) (token : Token) :
    state.verbatim token = ({ state with lineStart := false }, [.word token]) :=
  if_pos glued

/-- Any other verbatim text takes the breaks that are due. -/
theorem verbatim_apart {state : State} (apart : state.gluesToDot = false) (token : Token) :
    state.verbatim token =
      ({ state with
          awaitsFirstItem := false
          afterBlock := false
          statementStart := false
          lineStart := false },
        (if (state.awaitsFirstItem || state.afterBlock) && !state.lineStart then [.newline] else []) ++
          (if !(state.lineStart || (state.awaitsFirstItem || state.afterBlock)) &&
              (token.value.toList.head?.any fun c => c == '\n' || c == '\r') then []
            else { state with
              lineStart := state.lineStart || (state.awaitsFirstItem || state.afterBlock) }.lead) ++
          [.word token]) := by
  rw [verbatim, if_neg (by simp [apart]), takeBreaks_eq, Bool.or_assoc]
  rfl

/-! ## Keywords -/

/-- What a keyword means where it stands. -/
inductive Worded (state : State) (token : Token) (following : List Token) (result : Step) : Prop
  /-- A CASE is opened. -/
  | openCase (opens : token.value = "CASE") (same : result = state.openCase token)
  /-- A WHEN or an ELSE belongs to the CASE around it. -/
  | branch (value : token.value = "WHEN" ∨ token.value = "ELSE") (within : state.caseLevels ≠ [])
    (same : result = state.keywordLine token 1)
  /-- The innermost CASE is closed. -/
  | closeCase (closes : token.value = "END") {level : Int} {outer : List Int}
    (innermost : state.caseLevels = level :: outer) (same : result = state.closeCase token level outer)
  /-- A clause begins. -/
  | clause (notCase : token.value ≠ "CASE") (noEnd : token.value = "END" → state.caseLevels = [])
    (same : result = state.clause token following)
  /-- Any other keyword has no layout of its own. -/
  | item (notCase : token.value ≠ "CASE") (noEnd : token.value = "END" → state.caseLevels = [])
    (same : result = state.ordinary token)

/-- A CASE is opened wherever it stands. -/
theorem keyword_case (state : State) {token : Token} (opens : token.value = "CASE")
    (following : List Token) : state.keyword token following = state.openCase token := by
  rw [keyword, if_pos opens]

/-- A WHEN or an ELSE of a CASE starts a line one level beyond it. -/
theorem keyword_branch (state : State) {token : Token}
    (branch : token.value = "WHEN" ∨ token.value = "ELSE") (within : state.caseLevels ≠ [])
    (following : List Token) : state.keyword token following = state.keywordLine token 1 := by
  have notCase : token.value ≠ "CASE" := by
    rcases branch with same | same <;> simp [same]
  rw [keyword, if_neg notCase, if_pos ⟨branch, within⟩]

/-- An END closes the innermost CASE that is open. -/
theorem keyword_end (state : State) {token : Token} (closes : token.value = "END") {level : Int}
    {outer : List Int} (innermost : state.caseLevels = level :: outer) (following : List Token) :
    state.keyword token following = state.closeCase token level outer := by
  unfold keyword
  rw [if_neg (by simp [closes]), if_neg (by simp [closes]), closes, innermost]
  rfl

/-- A keyword that does not belong to a CASE is a clause or stands like an ordinary token. -/
theorem keyword_other (state : State) {token : Token} (notCase : token.value ≠ "CASE")
    (noBranch : ¬ ((token.value = "WHEN" ∨ token.value = "ELSE") ∧ state.caseLevels ≠ []))
    (noEnd : ¬ (token.value = "END" ∧ state.caseLevels ≠ [])) (following : List Token) :
    state.keyword token following =
      if Keyword.clauses.contains token.value || (token.value == "COMMENT" && state.inFunction) then
        state.clause token following
      else state.ordinary token := by
  rw [keyword, if_neg notCase, if_neg noBranch]
  split
  · rename_i level outer ends innermost
    exact absurd ⟨ends, by simp [innermost]⟩ noEnd
  · rfl

/-- A keyword is laid out by what it means where it stands. -/
theorem keyword_worded (state : State) (token : Token) (following : List Token) :
    state.Worded token following (state.keyword token following) := by
  by_cases opens : token.value = "CASE"
  · exact Worded.openCase opens (state.keyword_case opens following)
  by_cases branch : (token.value = "WHEN" ∨ token.value = "ELSE") ∧ state.caseLevels ≠ []
  · exact Worded.branch branch.1 branch.2 (state.keyword_branch branch.1 branch.2 following)
  by_cases closes : token.value = "END" ∧ state.caseLevels ≠ []
  · obtain ⟨level, outer, innermost⟩ := List.exists_cons_of_ne_nil closes.2
    exact Worded.closeCase closes.1 innermost (state.keyword_end closes.1 innermost following)
  have noEnd : token.value = "END" → state.caseLevels = [] := by
    simpa using closes
  have other := state.keyword_other opens branch closes following
  by_cases isClause : (Keyword.clauses.contains token.value ||
      (token.value == "COMMENT" && state.inFunction)) = true
  · exact Worded.clause opens noEnd (other.trans (if_pos isClause))
  · exact Worded.item opens noEnd (other.trans (if_neg isClause))

/-! ## Any token -/

/-- What lays out a token, by its kind. -/
inductive Handled (commas : CommaPosition) (state : State) (token : Token) (following : List Token)
    (result : Step) : Prop
  /-- A comment. -/
  | comment (kind : token.isComment = true) (same : result = state.comment token following)
  /-- A semicolon. -/
  | semicolon (kind : token.kind = .semicolon) (same : result = state.semicolon token)
  /-- An opening parenthesis. -/
  | openParen (kind : token.kind = .lparen) (same : result = state.openParen token following)
  /-- A closing parenthesis. -/
  | closeParen (kind : token.kind = .rparen) (same : result = state.closeParen token)
  /-- A comma. -/
  | comma (kind : token.kind = .comma) (same : result = State.comma commas state token)
  /-- A dot. -/
  | dot (kind : token.kind = .dot) (same : result = state.dot token)
  /-- A keyword, once the state has taken note of it. -/
  | keyword (kind : token.kind = .keyword)
    (same : result = (state.note token).keyword token following)
  /-- Text that is written as it stands. -/
  | verbatim (kind : token.kind = .dollarString) (same : result = state.verbatim token)
  /-- A token without a layout of its own. -/
  | ordinary (kind : token.kind.isOrdinary = true) (same : result = state.ordinary token)

/-- A token is laid out by what its kind asks for. -/
theorem place_handled (commas : CommaPosition) (state : State) (token : Token)
    (following : List Token) :
    Handled commas state token following (state.place commas token following) := by
  unfold place
  split
  · rename_i kind
    exact Handled.comment (by rw [Token.isComment, kind]; rfl) rfl
  · rename_i kind
    exact Handled.comment (by rw [Token.isComment, kind]; rfl) rfl
  · rename_i kind
    exact Handled.semicolon kind rfl
  · rename_i kind
    exact Handled.openParen kind rfl
  · rename_i kind
    exact Handled.closeParen kind rfl
  · rename_i kind
    exact Handled.comma kind rfl
  · rename_i kind
    exact Handled.dot kind rfl
  · rename_i kind
    exact Handled.keyword kind rfl
  · rename_i kind
    exact Handled.verbatim kind rfl
  · refine Handled.ordinary ?_ rfl
    unfold Kind.isOrdinary
    split <;> first | contradiction | rfl

/-- A comment is placed as a comment. -/
theorem place_comment (commas : CommaPosition) (state : State) {token : Token}
    (comment : token.isComment = true) (following : List Token) :
    state.place commas token following = state.comment token following := by
  rw [Token.isComment] at comment
  rw [place]
  cases kind : token.kind <;> rw [kind] at comment <;> first | rfl | cases comment

end State

end SqlLayout
