import SqlLayout.Proofs.Outline
import SqlLayout.Proofs.Routine
import SqlLayout.Token.Lexer

/-!
# Statements are laid out on their own

A semicolon parts two statements. Neither way of fusing tokens reaches across it
(`fuse_append`), and a look-ahead stops at it unless a parenthesis is left open before it
(`State.step_before`). Behind it the layout starts afresh: of the state only the last token is kept,
and at the start of a statement this token does not matter (`State.step_fresh`).
-/

namespace SqlLayout

/-! ## Open parentheses -/

/-- The parentheses that are open behind tokens, if some are open before them. A closing parenthesis
that nothing opened is ignored. -/
def openParens (depth : Nat) : List Token → Nat
  | [] => depth
  | token :: rest =>
    match token.kind with
    | .lparen => openParens (depth + 1) rest
    | .rparen => openParens (depth - 1) rest
    | _ => openParens depth rest

/-- An opening parenthesis is open until it is closed. -/
theorem openParens_cons_lparen {token : Token} (paren : token.kind = .lparen) (depth : Nat)
    (rest : List Token) : openParens depth (token :: rest) = openParens (depth + 1) rest := by
  rw [openParens, paren]

/-- A closing parenthesis closes one. -/
theorem openParens_cons_rparen {token : Token} (paren : token.kind = .rparen) (depth : Nat)
    (rest : List Token) : openParens depth (token :: rest) = openParens (depth - 1) rest := by
  rw [openParens, paren]

/-- Other tokens open and close nothing. -/
theorem openParens_cons {token : Token} (noOpening : token.kind ≠ .lparen)
    (noClosing : token.kind ≠ .rparen) (depth : Nat) (rest : List Token) :
    openParens depth (token :: rest) = openParens depth rest := by
  rw [openParens]
  split
  · contradiction
  · contradiction
  · rfl

/-- The more parentheses are open before tokens, the more are open behind them. -/
theorem openParens_mono {depth deeper : Nat} (le : depth ≤ deeper) (tokens : List Token) :
    openParens depth tokens ≤ openParens deeper tokens := by
  induction tokens generalizing depth deeper with
  | nil => exact le
  | cons token rest ih =>
    rw [openParens, openParens]
    split
    · exact ih (Nat.add_le_add_right le 1)
    · exact ih (Nat.sub_le_sub_right le 1)
    · exact ih le

/-- What is closed behind tokens is closed without the first of them. -/
theorem openParens_tail {token : Token} {rest : List Token}
    (closed : openParens 0 (token :: rest) = 0) : openParens 0 rest = 0 := by
  rw [openParens] at closed
  split at closed
  · exact Nat.le_zero.1 (closed ▸ openParens_mono (Nat.zero_le 1) rest)
  · exact closed
  · exact closed

/-! ## Looking ahead -/

/-- The arguments of a call are counted up to the parenthesis that closes it. -/
theorem argumentCommas_append {depth : Nat} {front : List Token}
    (closed : openParens (depth + 1) front = 0) (back : List Token) :
    argumentCommas depth (front ++ back) = argumentCommas depth front := by
  induction front generalizing depth with
  | nil => cases closed
  | cons token rest ih =>
    rw [List.cons_append, argumentCommas, argumentCommas]
    rw [openParens] at closed
    cases kind : token.kind <;> rw [kind] at closed <;> dsimp only at closed ⊢
    case lparen => exact ih closed
    case rparen =>
      cases depth with
      | zero => rfl
      | succ depth => exact ih closed
    all_goals rw [ih closed]

section Mark

variable {mark : Token} (isMark : mark.kind = .semicolon)

include isMark

/-- A semicolon is no layout. -/
theorem isLayout_of_semicolon : mark.isLayout = false := by
  rw [Token.isLayout, isMark]
  rfl

/-- The next significant token is not behind a semicolon. -/
theorem nextSignificant_before (front back : List Token) :
    nextSignificant (front ++ mark :: back) = nextSignificant (front ++ [mark]) := by
  have visible := isLayout_of_semicolon isMark
  rw [nextSignificant_eq, nextSignificant_eq, significant_append, significant_append,
    significant_cons visible, significant_cons visible, List.head?_append, List.head?_append]
  rfl

/-- The next meaningful token is not behind a semicolon. -/
theorem nextMeaningful_before (front back : List Token) :
    nextMeaningful (front ++ mark :: back) = nextMeaningful (front ++ [mark]) := by
  have found : (!mark.isLayout && !mark.isComment) = true := by
    rw [isLayout_of_semicolon isMark, Token.isComment, isMark]
    rfl
  rw [nextMeaningful, nextMeaningful, List.find?_append, List.find?_append, List.find?_cons,
    List.find?_cons, found]

/-- The selected items before a semicolon are counted up to it, if no parenthesis is open there. -/
theorem selectionCommas_before {depth caseDepth : Nat} {front : List Token}
    (closed : openParens depth front = 0) (back : List Token) :
    selectionCommas depth caseDepth (front ++ mark :: back) =
      selectionCommas depth caseDepth (front ++ [mark]) := by
  induction front generalizing depth caseDepth with
  | nil =>
    obtain rfl : depth = 0 := closed
    simp [selectionCommas, isMark]
  | cons token rest ih =>
    rw [List.cons_append, List.cons_append, selectionCommas, selectionCommas]
    by_cases opening : token.kind = .lparen
    · rw [openParens_cons_lparen opening] at closed
      simp [opening, ih closed]
    by_cases closing : token.kind = .rparen
    · rw [openParens_cons_rparen closing] at closed
      simp [closing, ih closed]
    · rw [openParens_cons opening closing] at closed
      simp only [opening, closing, if_false, ih closed]

end Mark

/-! ## Up to the semicolon -/

namespace State

variable {mark : Token} (isMark : mark.kind = .semicolon)

include isMark

/-- A token before a semicolon is laid out alike whatever is behind the semicolon, if no parenthesis
is open there. -/
theorem step_before (commas : CommaPosition) (state : State) {token : Token} {front : List Token}
    (closed : openParens 0 (token :: front) = 0) (back : List Token) :
    state.step commas token (front ++ mark :: back) = state.step commas token (front ++ [mark]) := by
  have comment : state.comment token (front ++ mark :: back) =
      state.comment token (front ++ [mark]) := by
    simp only [State.comment, commentLevel, nextMeaningful_before isMark]
  have openParen (paren : token.kind = .lparen) : state.openParen token (front ++ mark :: back) =
      state.openParen token (front ++ [mark]) := by
    rw [openParens_cons_lparen paren] at closed
    have kind : state.classify (front ++ mark :: back) = state.classify (front ++ [mark]) := by
      rw [classify, nextSignificant_before isMark, argumentCount, argumentCommas_append closed,
        classify, argumentCount, argumentCommas_append closed]
    rw [State.openParen, kind, State.openParen]
  have items : selectionCount (front ++ mark :: back) = selectionCount (front ++ [mark]) := by
    rw [selectionCount, selectionCommas_before isMark (openParens_tail closed), selectionCount]
  have keyword (state : State) : state.keyword token (front ++ mark :: back) =
      state.keyword token (front ++ [mark]) := by
    simp only [State.keyword, clause, items]
  simp only [step, place, comment, keyword]
  cases kind : token.kind <;> first | rfl | simp only [openParen kind]

end State

/-! ## Behind the semicolon -/

/-- The next state apart from the last token, and the pieces of a token. -/
def Step.forget (result : Step) : Step :=
  ({ result.1 with last := none }, result.2)

namespace State

/-- What a keyword says about a definition does not depend on the last token. -/
theorem noteDefinition_last (state : State) (last : Option Token) (value : String) :
    { state with last := last }.noteDefinition value =
      { state.noteDefinition value with last := last } := by
  obtain ⟨level, lineStart, statementStart, constructs, caseLevels, inDefinition, awaitsColumns,
    inFunction, afterBlock, awaitsFirstItem, former⟩ := state
  cases inDefinition
  all_goals
    simp only [noteDefinition]
    split_ifs <;> rfl

/-- What a keyword says about columns does not depend on the last token. -/
theorem noteColumns_last (state : State) (last : Option Token) (value : String) :
    { state with last := last }.noteColumns value =
      { state.noteColumns value with last := last } := by
  simp only [noteColumns]
  split_ifs <;> rfl

/-- What a keyword says about a statement does not depend on the last token. -/
theorem note_last (state : State) (last : Option Token) (token : Token) :
    { state with last := last }.note token = { state.note token with last := last } := by
  rw [note, note]
  by_cases keyword : token.kind = .keyword
  · rw [if_pos keyword, if_pos keyword, noteDefinition_last, noteColumns_last]
  · rw [if_neg keyword, if_neg keyword]

/-- At the start of a line no name is completed. -/
theorem unglued_of_lineStart {state : State} (begun : state.lineStart = true) :
    state.gluesToDot = false := by
  rw [gluesToDot, begun, Bool.not_true, Bool.and_false]

/-- At the start of a line an ordinary token is laid out alike behind every token. -/
theorem ordinary_last (state : State) (begun : state.lineStart = true) (last : Option Token)
    (token : Token) :
    ({ state with last := last }.ordinary token).forget = (state.ordinary token).forget := by
  rw [ordinary_apart (unglued_of_lineStart (by exact begun)) rfl,
    ordinary_apart (unglued_of_lineStart begun) rfl]
  simp only [lead, begun, Bool.true_or, if_true]
  rfl

/-- At the start of a line verbatim text is laid out alike behind every token. -/
theorem verbatim_last (state : State) (begun : state.lineStart = true) (last : Option Token)
    (token : Token) :
    ({ state with last := last }.verbatim token).forget = (state.verbatim token).forget := by
  rw [verbatim_apart (unglued_of_lineStart (by exact begun)),
    verbatim_apart (unglued_of_lineStart begun)]
  simp only [lead, begun, Bool.true_or, if_true]
  rfl

/-- At the start of a line a keyword is laid out alike behind every token. -/
theorem keyword_last (state : State) (begun : state.lineStart = true) (last : Option Token)
    (token : Token) (following : List Token) :
    ({ state with last := last }.keyword token following).forget =
      (state.keyword token following).forget := by
  by_cases opens : token.value = "CASE"
  · rw [keyword_case _ opens, keyword_case _ opens, openCase_eq, openCase_eq, freshLine_eq,
      freshLine_eq]
    rfl
  by_cases branch : (token.value = "WHEN" ∨ token.value = "ELSE") ∧ state.caseLevels ≠ []
  · rw [keyword_branch _ branch.1 (by exact branch.2), keyword_branch _ branch.1 branch.2,
      keywordLine_eq, keywordLine_eq, freshLine_eq, freshLine_eq]
    rfl
  by_cases closes : token.value = "END" ∧ state.caseLevels ≠ []
  · obtain ⟨level, outer, innermost⟩ := List.exists_cons_of_ne_nil closes.2
    rw [keyword_end _ closes.1 (by exact innermost), keyword_end _ closes.1 innermost, closeCase_eq,
      closeCase_eq, freshLine_eq, freshLine_eq]
    rfl
  rw [keyword_other _ opens (by exact branch) (by exact closes), keyword_other _ opens branch closes]
  dsimp only
  split
  · rw [clause_eq, clause_eq, freshLine_eq, freshLine_eq]
    rfl
  · exact ordinary_last state begun last token

/-- A statement is begun behind a semicolon as at the start of a list. -/
theorem step_fresh (commas : CommaPosition) {mark : Token} (isMark : mark.kind = .semicolon)
    (token : Token) (following : List Token) :
    ({ last := some mark } : State).step commas token following =
      ({} : State).step commas token following := by
  have kind : ({ last := some mark } : State).classify following =
      ({} : State).classify following := by
    have other : mark.isKeywordOf Keyword.concats = false := by
      rw [Token.isKeywordOf, isMark]
      rfl
    simp [classify, other]
  have alike : (({ last := some mark } : State).place commas token following).forget =
      (({} : State).place commas token following).forget := by
    unfold place
    split
    · rfl
    · rfl
    · rfl
    · rw [openParen, openParen, kind]
      cases ({} : State).classify following <;> rfl
    · rfl
    · rw [comma, comma]
      by_cases trailing : commas = .trailing
      · rw [trailing]
        rfl
      · simp only [trailing, if_neg, not_false_eq_true]
        rfl
    · rfl
    · rw [note_last {} (some mark) token]
      exact keyword_last _ (note_same {} token).1 (some mark) token following
    · exact verbatim_last {} rfl (some mark) token
    · exact ordinary_last {} rfl (some mark) token
  exact congrArg (fun result : Step => ({ result.1 with last := some token }, result.2)) alike

end State

/-! ## Fusing -/

section Barrier

variable {mark : Token} (isMark : mark.kind = .semicolon)

include isMark

/-- A significant token is not looked for behind a semicolon that the test refuses. -/
theorem throughSignificant_append {accepts : Token → Bool} (refused : accepts mark = false)
    (tokens rest : List Token) :
    throughSignificant accepts (tokens ++ mark :: rest) =
      (throughSignificant accepts tokens).map fun (taken, after) =>
        (taken, after ++ mark :: rest) := by
  have visible := isLayout_of_semicolon isMark
  unfold throughSignificant
  rw [skipLayout, dropWhile_append_cons visible, takeWhile_append_cons visible, ← skipLayout]
  cases skipLayout tokens with
  | nil => simp [refused]
  | cons token behind =>
    dsimp only [List.cons_append]
    split <;> rfl

/-- A header does not reach across a semicolon. -/
theorem languageHeader?_append (tokens rest : List Token) :
    languageHeader? (tokens ++ mark :: rest) =
      (languageHeader? tokens).map fun (header, after) => (header, after ++ mark :: rest) := by
  have noName : mark.kind.namesLanguage = false := by
    rw [isMark]
    rfl
  have noKeyword : mark.isKeyword "AS" = false := by
    rw [Token.isKeyword, isMark]
    rfl
  unfold languageHeader?
  rw [throughSignificant_append isMark noName]
  cases throughSignificant (·.kind.namesLanguage) tokens with
  | none => rfl
  | some pair =>
    obtain ⟨name, afterName⟩ := pair
    simp only [Option.map_some, Option.bind_eq_bind, Option.bind_some]
    rw [throughSignificant_append isMark noKeyword]
    cases throughSignificant (Token.isKeyword "AS") afterName with
    | none => rfl
    | some pair =>
      obtain ⟨as, afterMark⟩ := pair
      simp only [Option.map_some, Option.bind_some]
      rw [nextSignificant, skipLayout, dropWhile_append_cons (isLayout_of_semicolon isMark),
        ← skipLayout, nextSignificant]
      cases skipLayout afterMark with
      | nil => simp [isMark, Kind.isWholeBody]
      | cons first behind =>
        simp only [List.cons_append, List.head?_cons, Option.bind_some]
        split <;> rfl

/-- A body ends at a semicolon. -/
theorem bodyAt?_append (token : Token) (tokens rest : List Token) :
    bodyAt? token (tokens ++ mark :: rest) =
      (bodyAt? token tokens).map fun (header, body, after) =>
        (header, body, after ++ mark :: rest) := by
  have ends : (!mark.kind.endsStatement) = false := by
    rw [isMark]
    rfl
  have taken := @takeWhile_append_cons (!·.kind.endsStatement) mark ends
  have left := @dropWhile_append_cons (!·.kind.endsStatement) mark ends
  unfold bodyAt?
  rw [languageHeader?_append isMark]
  split
  · simp only [Option.map_map]
    congr 1
    funext pair
    simp only [Function.comp_apply, taken, left]
  · rfl

/-- Bodies are fused on either side of a semicolon. -/
theorem fuseBodies_append (tokens rest : List Token) :
    fuseBodies (tokens ++ mark :: rest) = fuseBodies tokens ++ mark :: fuseBodies rest := by
  fun_induction fuseBodies tokens with
  | case1 =>
    have other : bodyAt? mark rest = none := by
      rw [bodyAt?, Token.isKeyword, isMark]
      rfl
    rw [List.nil_append, fuseBodies_cons_none other]
    rfl
  | case2 token behind header body after found ih =>
    have again := bodyAt?_append isMark token behind rest
    rw [found, Option.map_some] at again
    rw [List.cons_append, fuseBodies_cons_some again, ih, List.append_assoc _ (fuseBodies after)]
  | case3 token behind found ih =>
    have again := bodyAt?_append isMark token behind rest
    rw [found, Option.map_none] at again
    rw [List.cons_append, fuseBodies_cons_none again, ih]
    rfl

/-- Tokens are fused on either side of a semicolon. -/
theorem fuse_append (tokens rest : List Token) :
    fuse (tokens ++ mark :: rest) = fuse tokens ++ mark :: fuse rest := by
  have plain : mark.kind ≠ .keyword := by
    rw [isMark]
    decide
  rw [fuse, fuseBodies_append isMark, fuseKeywords_append (isLayout_of_semicolon isMark) plain, fuse,
    fuse]

/-! ## Whole statements -/

/-- Tokens up to a semicolon are laid out alike whatever is behind it, if no parenthesis is open
there, and behind it the layout starts with a fresh state. -/
theorem piecesFrom_append (commas : CommaPosition) (state : State) {front : List Token}
    (going : ∀ token ∈ front, token.kind ≠ .eof) (closed : openParens 0 front = 0)
    (back : List Token) :
    piecesFrom commas state (front ++ mark :: back) =
      piecesFrom commas state (front ++ [mark]) ++ piecesFrom commas { last := some mark } back := by
  induction front generalizing state with
  | nil =>
    have visible := isLayout_of_semicolon isMark
    have next : state.step commas mark = fun _ =>
        ({ last := some mark }, [.word mark, .newline, .newline]) := by
      funext following
      rw [State.step, State.place, isMark]
      rfl
    simp [piecesFrom, courseFrom, visible, isMark, next]
  | cons token front ih =>
    have here := going token List.mem_cons_self
    have others (state : State) := ih state
      (fun token member => going token (List.mem_cons_of_mem _ member)) (openParens_tail closed)
    simp only [piecesFrom] at others
    rw [List.cons_append, List.cons_append, piecesFrom, courseFrom, piecesFrom, courseFrom, piecesFrom]
    cases layout : token.isLayout with
    | true => exact others state
    | false =>
      simp only [Bool.false_eq_true, if_false, here]
      rw [State.step_before isMark commas state closed back, List.flatMap_cons, List.flatMap_cons,
        others, List.append_assoc]

end Barrier

/-- Fusing adds no end token. -/
theorem kind_ne_eof_of_mem_fuse {tokens : List Token} (going : ∀ token ∈ tokens, token.kind ≠ .eof)
    {token : Token} (member : token ∈ fuse tokens) : token.kind ≠ .eof := by
  rcases mem_fuseKeywords member with fused | keyword
  · rcases mem_fuseBodies fused with inside | ⟨body, made⟩
    · exact going token inside
    · obtain ⟨_, _, _, _, rfl⟩ := bodyToken_eq_some made
      nofun
  · rw [keyword]
    decide

/-- A layout goes on behind a semicolon as if it started there. -/
theorem piecesFrom_fresh (commas : CommaPosition) {mark : Token} (isMark : mark.kind = .semicolon)
    (tokens : List Token) : piecesFrom commas { last := some mark } tokens = pieces commas tokens := by
  rw [pieces]
  induction tokens with
  | nil => rfl
  | cons token rest ih =>
    rw [piecesFrom, courseFrom, piecesFrom, courseFrom, State.step_fresh commas isMark]
    split
    · exact ih
    · rfl

/-- Statements are fused and laid out on their own. Tokens without an end token before a semicolon are
fused apart from those behind it, and if every parenthesis among them is closed there, what is
written is the text of the tokens up to the semicolon followed by the text of those behind it. -/
theorem statements_independent {front : List Token} (going : ∀ token ∈ front, token.kind ≠ .eof)
    (closed : openParens 0 (fuse front) = 0) {mark : Token} (isMark : mark.kind = .semicolon)
    (back : List Token) :
    fuse (front ++ mark :: back) = fuse front ++ mark :: fuse back ∧
      ∀ options : Options,
        writtenText options (pieces options.commaPosition (fuse (front ++ mark :: back))) =
          writtenText options (pieces options.commaPosition (fuse front ++ [mark])) ++
            writtenText options (pieces options.commaPosition (fuse back)) := by
  have parted := fuse_append isMark front back
  refine ⟨parted, fun options => ?_⟩
  have laidOut := piecesFrom_append isMark options.commaPosition {}
    (fun _ => kind_ne_eof_of_mem_fuse going) closed (fuse back)
  rw [piecesFrom_fresh _ isMark] at laidOut
  rw [parted, pieces, laidOut]
  exact List.flatMap_append

/-- A query with nested parentheses is laid out apart from the query behind its semicolon. -/
theorem statements_independent_query :
    writtenText {} (pieces .trailing (fuse ((tokenize "select concat(a, (b), c), d").dropLast ++
        ⟨.semicolon, ";", ";", ⟨.first, .first⟩⟩ :: tokenize "from t"))) =
      writtenText {} (pieces .trailing (fuse (tokenize "select concat(a, (b), c), d").dropLast ++
          [⟨.semicolon, ";", ";", ⟨.first, .first⟩⟩])) ++
        writtenText {} (pieces .trailing (fuse (tokenize "from t"))) :=
  (statements_independent (by decide +kernel) (by decide +kernel) rfl _).2 {}

end SqlLayout
