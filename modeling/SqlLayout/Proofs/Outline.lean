import SqlLayout.Proofs.Fusion
import SqlLayout.Proofs.Placement

/-!
# What a layout depends on

A layout depends on the kinds of the tokens, on the canonical texts of the keywords and on whether a
verbatim text starts with the end of a line; on nothing else of a token, and on no layout between
tokens. Hence changing the tokens in any other way changes the words of the layout and nothing else
(`pieces_map`), and dropping the layout of the source changes nothing (`pieces_significant`).
-/

namespace SqlLayout

/-- Whether a change of tokens keeps all that a layout depends on. -/
structure Faithful (change : Token → Token) : Prop extends Respects change where
  /-- A text that starts with the end of a line still does, and no other does. -/
  startsLine : ∀ token, (change token).startsLine = token.startsLine

/-- A piece with its token changed. -/
def Piece.relabel (change : Token → Token) : Piece → Piece
  | .word token => .word (change token)
  | piece => piece

/-- A state that remembers a changed token. -/
def State.relabel (change : Token → Token) (state : State) : State :=
  { state with last := state.last.map change }

/-- A step with its token changed. -/
def Step.relabel (change : Token → Token) (result : Step) : Step :=
  (result.1.relabel change, result.2.map (Piece.relabel change))

namespace Faithful

variable {change : Token → Token} (faithful : Faithful change)

include faithful

/-! ## Looking ahead -/

/-- Comments stay comments. -/
theorem isComment (token : Token) : (change token).isComment = token.isComment := by
  rw [Token.isComment, faithful.kind, Token.isComment]

/-- Keywords of a list stay in it. -/
theorem isKeywordOf (words : List String) (token : Token) :
    (change token).isKeywordOf words = token.isKeywordOf words := by
  by_cases keyword : token.kind = .keyword
  · rw [Token.isKeywordOf, faithful.kind, faithful.value token keyword, Token.isKeywordOf]
  · have other : (change token).kind ≠ .keyword := by rwa [faithful.kind]
    rw [Token.isKeywordOf, Token.isKeywordOf, beq_eq_false_iff_ne.2 keyword,
      beq_eq_false_iff_ne.2 other]
    rfl

/-- The next significant token is the changed one. -/
theorem nextSignificant_map (tokens : List Token) :
    nextSignificant (tokens.map change) = (nextSignificant tokens).map change := by
  rw [nextSignificant, faithful.skipLayout_map, List.head?_map, nextSignificant]

/-- The next meaningful token is the changed one. -/
theorem nextMeaningful_map (tokens : List Token) :
    nextMeaningful (tokens.map change) = (nextMeaningful tokens).map change := by
  rw [nextMeaningful, List.find?_map, nextMeaningful]
  congr 2
  funext token
  rw [Function.comp_apply, faithful.isLayout, faithful.isComment]

/-- Arguments are counted alike. -/
theorem argumentCount_map (tokens : List Token) :
    argumentCount (tokens.map change) = argumentCount tokens := by
  have commas (depth : Nat) :
      argumentCommas depth (tokens.map change) = argumentCommas depth tokens := by
    induction tokens generalizing depth with
    | nil => rfl
    | cons token rest ih =>
      simp only [List.map_cons, argumentCommas, faithful.kind, ih]
  rw [argumentCount, commas, argumentCount]

/-- Selected items are counted alike. -/
theorem selectionCount_map (tokens : List Token) :
    selectionCount (tokens.map change) = selectionCount tokens := by
  have commas (depth caseDepth : Nat) :
      selectionCommas depth caseDepth (tokens.map change) =
        selectionCommas depth caseDepth tokens := by
    induction tokens generalizing depth caseDepth with
    | nil => rfl
    | cons token rest ih =>
      simp only [List.map_cons, selectionCommas, faithful.kind, faithful.isKeyword,
        faithful.isKeywordOf, ih]
  rw [selectionCount, commas, selectionCount]

/-! ## The state -/

omit faithful in
/-- A test that the change does not affect is met by the same last tokens. -/
theorem any_last_relabel {test : Token → Bool} (same : ∀ token, test (change token) = test token)
    (state : State) : (state.relabel change).last.any test = state.last.any test := by
  rw [State.relabel, Option.any_map]
  congr 1
  funext token
  exact same token

/-- The kind of the last token is remembered alike. -/
theorem follows_relabel (state : State) (kind : Kind) :
    (state.relabel change).follows kind = state.follows kind :=
  any_last_relabel (fun token => by rw [faithful.kind]) state

/-- A comment belongs to the same tokens. -/
theorem groupsComment_relabel (state : State) :
    (state.relabel change).groupsComment = state.groupsComment :=
  any_last_relabel (fun token => by
    rw [faithful.kind, faithful.isComment, faithful.isKeyword]) state

/-- A parenthesis follows the same callees. -/
theorem followsCallee_relabel (state : State) :
    (state.relabel change).followsCallee = state.followsCallee := by
  refine any_last_relabel (fun token => ?_) state
  by_cases keyword : token.kind = .keyword
  · rw [faithful.kind, faithful.value token keyword]
  · rw [faithful.kind]
    split <;> first | rfl | contradiction

/-- A comment is indented alike. -/
theorem commentLevel_relabel (state : State) (following : List Token) :
    (state.relabel change).commentLevel (following.map change) = state.commentLevel following := by
  rw [State.commentLevel, State.commentLevel, faithful.nextMeaningful_map]
  cases nextMeaningful following with
  | none => rfl
  | some token =>
    simp only [Option.map_some, faithful.kind]
    split
    · rename_i keyword
      rw [faithful.value token keyword]
      rfl
    · rfl

/-- A parenthesis is opened for the same reason. -/
theorem classify_relabel (state : State) (following : List Token) :
    (state.relabel change).classify (following.map change) = state.classify following := by
  have next : (nextSignificant (following.map change)).any (Token.isKeywordOf Keyword.clauses) =
      (nextSignificant following).any (Token.isKeywordOf Keyword.clauses) := by
    rw [faithful.nextSignificant_map, Option.any_map]
    congr 1
    funext token
    exact faithful.isKeywordOf _ token
  have last : (state.relabel change).last.any (Token.isKeywordOf Keyword.concats) =
      state.last.any (Token.isKeywordOf Keyword.concats) :=
    any_last_relabel (faithful.isKeywordOf _) state
  rw [State.classify, State.classify, next, last, faithful.argumentCount_map]
  rfl

/-- The spacing before a parenthesis is the same. -/
theorem parenGap_relabel (state : State) (kind : ConstructKind) :
    (state.relabel change).parenGap kind = state.parenGap kind := by
  cases kind <;>
    simp only [State.parenGap, faithful.follows_relabel, faithful.followsCallee_relabel]

/-- The spacing before an ordinary token is the same. -/
theorem lead_relabel (state : State) : (state.relabel change).lead = state.lead := by
  rw [State.lead, faithful.follows_relabel, State.lead]
  rfl

/-- A qualified name is completed alike. -/
theorem gluesToDot_relabel (state : State) :
    (state.relabel change).gluesToDot = state.gluesToDot := by
  rw [State.gluesToDot, faithful.follows_relabel, State.gluesToDot]
  rfl

/-! ## One token -/

omit faithful in
/-- A fresh line is begun alike. -/
theorem freshLine_relabel (state : State) :
    (state.relabel change).freshLine = state.freshLine.relabel change := by
  obtain ⟨level, lineStart, statementStart, constructs, caseLevels, inDefinition, awaitsColumns,
    inFunction, afterBlock, awaitsFirstItem, last⟩ := state
  cases lineStart <;> rfl

omit faithful in
/-- A keyword says the same about what a statement defines. -/
theorem noteDefinition_relabel (state : State) (value : String) :
    (state.relabel change).noteDefinition value =
      (state.noteDefinition value).relabel change := by
  obtain ⟨level, lineStart, statementStart, constructs, caseLevels, inDefinition, awaitsColumns,
    inFunction, afterBlock, awaitsFirstItem, last⟩ := state
  cases inDefinition
  all_goals
    simp only [State.relabel, State.noteDefinition]
    split_ifs <;> rfl

omit faithful in
/-- A keyword says the same about columns. -/
theorem noteColumns_relabel (state : State) (value : String) :
    (state.relabel change).noteColumns value = (state.noteColumns value).relabel change := by
  simp only [State.noteColumns]
  split_ifs <;> rfl

/-- A keyword says the same about a statement. -/
theorem note_relabel (state : State) (token : Token) :
    (state.relabel change).note (change token) = (state.note token).relabel change := by
  rw [State.note, State.note, faithful.kind]
  by_cases keyword : token.kind = .keyword
  · rw [if_pos keyword, if_pos keyword, faithful.value token keyword, noteDefinition_relabel,
      noteColumns_relabel]
  · rw [if_neg keyword, if_neg keyword]

omit faithful in
/-- Spacing has no token to change. -/
theorem map_relabel_gap {gap : List Piece} (blank : ∀ piece ∈ gap, piece.isGap = true) :
    gap.map (Piece.relabel change) = gap := by
  have same : gap.map (Piece.relabel change) = gap.map id := by
    refine List.map_congr_left fun piece member => ?_
    cases piece with
    | word token => cases blank _ member
    | newline => rfl
    | indent level => rfl
    | space => rfl
  rw [same, List.map_id]

omit faithful in
/-- Neither has a break. -/
theorem map_relabel_break (due : Bool) :
    (if due then [Piece.newline] else []).map (Piece.relabel change) =
      if due then [.newline] else [] := by
  cases due <;> rfl

/-- The spacing before an ordinary token has none either. -/
theorem map_relabel_lead (state : State) :
    state.lead.map (Piece.relabel change) = (state.relabel change).lead := by
  rw [faithful.lead_relabel, map_relabel_gap state.lead_isGap]

/-- Comments are laid out alike. -/
theorem comment_relabel (state : State) (token : Token) (following : List Token) :
    (state.relabel change).comment (change token) (following.map change) =
      (state.comment token following).relabel change := by
  have spacing (grouped : Bool) : (if grouped then [] else [Piece.newline]).map
      (Piece.relabel change) = if grouped then [] else [.newline] := by
    cases grouped <;> rfl
  rw [State.comment_eq, State.comment_eq, freshLine_relabel, faithful.groupsComment_relabel,
    faithful.commentLevel_relabel]
  dsimp only [Step.relabel]
  rw [List.map_append, List.map_append, spacing]
  rfl

/-- Opening parentheses are laid out alike. -/
theorem openParen_relabel (state : State) (token : Token) (following : List Token) :
    (state.relabel change).openParen (change token) (following.map change) =
      (state.openParen token following).relabel change := by
  obtain ⟨kind, classified⟩ : ∃ kind, state.classify following = kind := ⟨_, rfl⟩
  obtain ⟨begun, starts⟩ : ∃ begun,
      (state.lineStart || state.awaitsFirstItem || state.afterBlock) = begun := ⟨_, rfl⟩
  obtain ⟨column, placed⟩ : ∃ column,
      state.indentLevel + (if begun then state.contentLevel else 0) = column := ⟨_, rfl⟩
  have gap : (if begun then [Piece.indent column] else state.parenGap kind).map
      (Piece.relabel change) = if begun then [.indent column] else state.parenGap kind := by
    rcases state.parenGap_isGap kind with none | one
    · rw [none]
      cases begun <;> rfl
    · rw [one]
      cases begun <;> rfl
  rw [State.openParen_eq (state.relabel change) _
    ((faithful.classify_relabel state following).trans classified) starts placed,
    State.openParen_eq state token classified starts placed, faithful.parenGap_relabel]
  dsimp only [Step.relabel]
  rw [List.map_append, List.map_append, gap, map_relabel_break, List.map_cons, map_relabel_break]
  rfl

omit faithful in
/-- Closing parentheses are laid out alike. -/
theorem closeParen_relabel (state : State) (token : Token) :
    (state.relabel change).closeParen (change token) =
      (state.closeParen token).relabel change := by
  obtain ⟨level, lineStart, statementStart, constructs, caseLevels, inDefinition, awaitsColumns,
    inFunction, afterBlock, awaitsFirstItem, last⟩ := state
  cases constructs with
  | nil => cases lineStart <;> rfl
  | cons construct outer =>
    obtain ⟨kind, outerLevel, columnLevel⟩ := construct
    cases kind <;> cases lineStart <;> rfl

omit faithful in
/-- Commas are laid out alike. -/
theorem comma_relabel (commas : CommaPosition) (state : State) (token : Token) :
    State.comma commas (state.relabel change) (change token) =
      (State.comma commas state token).relabel change := by
  have sameTop : (state.relabel change).top = state.top := rfl
  have sameBlock : (state.relabel change).afterBlock = state.afterBlock := rfl
  unfold State.comma
  rw [sameTop, sameBlock]
  by_cases inline : (state.top == some .grouping && !state.afterBlock) = true
  · simp only [if_pos inline]
    rfl
  simp only [if_neg inline]
  by_cases trailing : commas = .trailing
  · simp only [if_pos trailing]
    rfl
  · simp only [if_neg trailing]
    rw [freshLine_relabel]
    dsimp only [Step.relabel]
    rw [List.map_append]
    rfl

omit faithful in
/-- Keywords at the start of a line are laid out alike. -/
theorem keywordLine_relabel (state : State) (token : Token) (extra : Int) :
    (state.relabel change).keywordLine (change token) extra =
      (state.keywordLine token extra).relabel change := by
  rw [State.keywordLine, freshLine_relabel, State.keywordLine]
  dsimp only [Step.relabel]
  rw [List.map_append]
  rfl

/-- Tokens without a layout of their own are laid out alike. -/
theorem ordinary_relabel (state : State) (token : Token) :
    (state.relabel change).ordinary (change token) = (state.ordinary token).relabel change := by
  have sameGlue := faithful.gluesToDot_relabel state
  cases glued : state.gluesToDot with
  | true =>
    rw [State.ordinary_glued glued, State.ordinary_glued (sameGlue.trans glued)]
    rfl
  | false =>
    have word : ((change token).isKeyword "DISTINCT" || (change token).isKeyword "ALL") =
        (token.isKeyword "DISTINCT" || token.isKeyword "ALL") := by
      rw [faithful.isKeyword, faithful.isKeyword]
    rw [State.ordinary_apart glued rfl, State.ordinary_apart (sameGlue.trans glued) word]
    dsimp only [Step.relabel]
    rw [List.map_append, List.map_append, faithful.map_relabel_lead, map_relabel_break]
    rfl

/-- Verbatim texts are laid out alike. -/
theorem verbatim_relabel (state : State) (token : Token) :
    (state.relabel change).verbatim (change token) = (state.verbatim token).relabel change := by
  have starts := faithful.startsLine token
  have sameGlue := faithful.gluesToDot_relabel state
  unfold Token.startsLine at starts
  cases glued : state.gluesToDot with
  | true =>
    rw [State.verbatim_glued glued, State.verbatim_glued (sameGlue.trans glued)]
    rfl
  | false =>
    have gap (begins : Bool) (state : State) :
        (if begins then [] else state.lead).map (Piece.relabel change) =
          if begins then [] else (state.relabel change).lead := by
      cases begins with
      | true => rfl
      | false => exact faithful.map_relabel_lead state
    rw [State.verbatim_apart glued, State.verbatim_apart (sameGlue.trans glued), starts]
    dsimp only [Step.relabel]
    rw [List.map_append, List.map_append, gap, map_relabel_break]
    rfl

/-- Keywords are laid out alike. -/
theorem keyword_relabel (state : State) {token : Token} (keyword : token.kind = .keyword)
    (following : List Token) :
    (state.relabel change).keyword (change token) (following.map change) =
      (state.keyword token following).relabel change := by
  have value := faithful.value token keyword
  have line (level : Int) : (state.freshLine.2 ++ [Piece.indent level, .word token]).map
      (Piece.relabel change) = (state.relabel change).freshLine.2 ++
        [.indent level, .word (change token)] := by
    rw [freshLine_relabel, List.map_append]
    rfl
  by_cases opens : token.value = "CASE"
  · rw [State.keyword_case _ (value.trans opens), State.keyword_case _ opens, State.openCase_eq,
      State.openCase_eq]
    dsimp only [Step.relabel]
    rw [line]
    rfl
  by_cases branch : (token.value = "WHEN" ∨ token.value = "ELSE") ∧ state.caseLevels ≠ []
  · rw [State.keyword_branch _ branch.1 branch.2,
      State.keyword_branch _ (by rw [value]; exact branch.1) (by exact branch.2)]
    exact keywordLine_relabel state token 1
  by_cases closes : token.value = "END" ∧ state.caseLevels ≠ []
  · obtain ⟨level, outer, innermost⟩ := List.exists_cons_of_ne_nil closes.2
    rw [State.keyword_end _ closes.1 innermost,
      State.keyword_end _ (value.trans closes.1) (by exact innermost), State.closeCase_eq,
      State.closeCase_eq]
    dsimp only [Step.relabel]
    rw [line]
    rfl
  rw [State.keyword_other _ opens branch closes, State.keyword_other _ (by rwa [value])
    (by rw [value]; exact branch) (by rw [value]; exact closes), value]
  have sameFunction : (state.relabel change).inFunction = state.inFunction := rfl
  rw [sameFunction]
  split
  · rw [State.clause_eq, State.clause_eq, value, faithful.selectionCount_map]
    dsimp only [Step.relabel]
    rw [line]
    rfl
  · exact faithful.ordinary_relabel state token

/-- Every token is laid out alike. -/
theorem step_relabel (commas : CommaPosition) (state : State) (token : Token)
    (following : List Token) :
    (state.relabel change).step commas (change token) (following.map change) =
      (state.step commas token following).relabel change := by
  have place : (state.relabel change).place commas (change token) (following.map change) =
      (state.place commas token following).relabel change := by
    unfold State.place
    rw [faithful.kind]
    split
    · exact faithful.comment_relabel state token following
    · exact faithful.comment_relabel state token following
    · rfl
    · exact faithful.openParen_relabel state token following
    · exact closeParen_relabel state token
    · exact comma_relabel commas state token
    · rfl
    · rename_i keyword
      rw [faithful.note_relabel]
      exact faithful.keyword_relabel _ keyword following
    · exact faithful.verbatim_relabel state token
    · exact faithful.ordinary_relabel state token
  rw [State.step, place]
  rfl

/-- A run lays out changed tokens alike. -/
theorem piecesFrom_map (commas : CommaPosition) (state : State) (tokens : List Token) :
    piecesFrom commas (state.relabel change) (tokens.map change) =
      (piecesFrom commas state tokens).map (Piece.relabel change) := by
  induction tokens generalizing state with
  | nil => rfl
  | cons token rest ih =>
    rw [piecesFrom, piecesFrom, List.map_cons, courseFrom, courseFrom, faithful.isLayout,
      faithful.kind, faithful.step_relabel]
    split
    · exact ih state
    split
    · rfl
    · rw [List.flatMap_cons, List.flatMap_cons, List.map_append]
      congr 1
      exact ih _

/-- A layout depends on a change of the tokens in its words only. -/
theorem pieces_map (commas : CommaPosition) (tokens : List Token) :
    pieces commas (tokens.map change) = (pieces commas tokens).map (Piece.relabel change) :=
  faithful.piecesFrom_map commas {} tokens

end Faithful

/-! ## Layout of the source -/

/-- Layout does not matter for the next meaningful token. -/
theorem nextMeaningful_significant (tokens : List Token) :
    nextMeaningful (significant tokens) = nextMeaningful tokens := by
  rw [nextMeaningful, significant, List.find?_filter, nextMeaningful]
  congr 1
  funext token
  cases token.isLayout <;> simp

/-- Layout does not matter for the next significant token. -/
theorem nextSignificant_significant (tokens : List Token) :
    nextSignificant (significant tokens) = nextSignificant tokens := by
  rw [nextSignificant, skipLayout_significant, nextSignificant_eq]

/-- Layout does not matter for the number of arguments. -/
theorem argumentCount_significant (tokens : List Token) :
    argumentCount (significant tokens) = argumentCount tokens := by
  have commas (depth : Nat) :
      argumentCommas depth (significant tokens) = argumentCommas depth tokens := by
    induction tokens generalizing depth with
    | nil => rfl
    | cons token rest ih =>
      cases layout : token.isLayout with
      | true =>
        rw [significant_cons_layout layout, ih, argumentCommas]
        rcases kind_of_isLayout layout with kind | kind <;> rw [kind]
      | false => simp only [significant_cons layout, argumentCommas, ih]
  rw [argumentCount, commas, argumentCount]

/-- Layout does not matter for the number of selected items. -/
theorem selectionCount_significant (tokens : List Token) :
    selectionCount (significant tokens) = selectionCount tokens := by
  have commas (depth caseDepth : Nat) :
      selectionCommas depth caseDepth (significant tokens) =
        selectionCommas depth caseDepth tokens := by
    induction tokens generalizing depth caseDepth with
    | nil => rfl
    | cons token rest ih =>
      cases layout : token.isLayout with
      | true =>
        rw [significant_cons_layout layout, ih, selectionCommas]
        rcases kind_of_isLayout layout with kind | kind <;>
          simp [Token.isKeyword, Token.isKeywordOf, kind]
      | false => simp only [significant_cons layout, selectionCommas, ih]
  rw [selectionCount, commas, selectionCount]

/-- A token is laid out alike whatever the layout behind it. -/
theorem State.step_significant (commas : CommaPosition) (state : State) (token : Token)
    (following : List Token) :
    state.step commas token (significant following) = state.step commas token following := by
  have comment : state.comment token (significant following) = state.comment token following := by
    simp only [State.comment, State.commentLevel, nextMeaningful_significant]
  have openParen : state.openParen token (significant following) =
      state.openParen token following := by
    have kind : state.classify (significant following) = state.classify following := by
      rw [State.classify, nextSignificant_significant, argumentCount_significant, State.classify]
    rw [State.openParen, kind, State.openParen]
  have keyword (state : State) : state.keyword token (significant following) =
      state.keyword token following := by
    simp only [State.keyword, State.clause, selectionCount_significant]
  simp only [State.step, State.place, comment, openParen, keyword]

/-- The layout of the source does not matter for the layout of its tokens. -/
theorem piecesFrom_significant (commas : CommaPosition) (state : State) (tokens : List Token) :
    piecesFrom commas state (significant tokens) = piecesFrom commas state tokens := by
  induction tokens generalizing state with
  | nil => rfl
  | cons token rest ih =>
    cases layout : token.isLayout with
    | true =>
      rw [significant_cons_layout layout, ih, piecesFrom, piecesFrom, courseFrom, if_pos layout]
    | false =>
      rw [significant_cons layout, piecesFrom, piecesFrom, courseFrom, courseFrom, layout,
        State.step_significant]
      simp only [Bool.false_eq_true, if_false]
      split
      · rfl
      · rw [List.flatMap_cons, List.flatMap_cons]
        congr 1
        exact ih _

/-- A layout is that of the significant tokens. -/
theorem pieces_significant (commas : CommaPosition) (tokens : List Token) :
    pieces commas (significant tokens) = pieces commas tokens :=
  piecesFrom_significant commas {} tokens

end SqlLayout
