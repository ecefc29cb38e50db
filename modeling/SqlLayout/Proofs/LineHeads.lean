import SqlLayout.Proofs.ParenAlignment

/-!
# Tokens at the start of a line

Where a line has begun, or the break before the first item of a selection is due, the next token heads
a line, unless it is a comment or a mark (`Entry.Leaves.breaks_head`). The level of that line depends
on the token and on the levels and flags of the state (`State.headLevel`). Comments leave all of
these as they are (`Walk.after_comments`), and what a step sees of the tokens behind its own is what is
laid out next (`course_step`).
-/

namespace SqlLayout

/-- Whether tokens of a kind may head a line with a level of their own: words, literals, operators and
opening parentheses, but neither comments nor the marks that belong to the token before them. -/
def Kind.heads : Kind → Bool
  | .keyword | .identifier | .backtick | .parameter | .number | .string | .dollarString | .lparen
  | .operator => true
  | _ => false

namespace Token

/-- A token that heads a line is of no kind that does not. -/
theorem kind_ne_of_heads {token : Token} (heads : token.kind.heads = true) {kind : Kind}
    (other : kind.heads = false) : token.kind ≠ kind := by
  intro same
  rw [same, other] at heads
  cases heads

/-- A token that heads a line is no comment. -/
theorem isComment_of_heads {token : Token} (heads : token.kind.heads = true) :
    token.isComment = false := by
  rw [isComment]
  cases kind : token.kind <;> rw [kind] at heads <;> first | rfl | cases heads

/-- Whether a token is a word that stays on the line of its SELECT. -/
def staysWithSelect (token : Token) : Bool :=
  token.isKeyword "DISTINCT" || token.isKeyword "ALL"

end Token

/-! ## The tokens behind a token -/

/-- The significant tokens of a list are those that are written, and those from the end on. -/
theorem significant_eq_written (tokens : List Token) :
    ∃ ending, significant tokens = written tokens ++ ending ∧
      ∀ token ∈ ending.head?, token.kind = .eof := by
  induction tokens with
  | nil => exact ⟨[], rfl, nofun⟩
  | cons token rest ih =>
    obtain ⟨ending, split, ended⟩ := ih
    cases layout : token.isLayout with
    | true =>
      rw [significant_cons_layout layout, written_cons_layout layout]
      exact ⟨ending, split, ended⟩
    | false =>
      rw [significant_cons layout]
      by_cases eof : token.kind = .eof
      · rw [written_cons_eof eof]
        refine ⟨token :: significant rest, rfl, fun first same => ?_⟩
        rw [← Option.some.inj same]
        exact eof
      · rw [written_cons layout eof, split]
        exact ⟨ending, rfl, ended⟩

/-- The tokens of a course are those that are written. -/
theorem map_token_courseFrom (commas : CommaPosition) (state : State) (tokens : List Token) :
    (courseFrom commas state tokens).map Entry.token = written tokens := by
  induction tokens generalizing state with
  | nil => rfl
  | cons token rest ih =>
    rw [courseFrom]
    by_cases layout : token.isLayout = true
    · rw [if_pos layout, written_cons_layout layout]
      exact ih state
    rw [if_neg layout]
    by_cases ended : token.kind = .eof
    · rw [if_pos ended, written_cons_eof ended]
      rfl
    · rw [if_neg ended, written_cons (by simpa using layout) ended]
      exact congrArg (token :: ·) (ih _)

/-- An entry of a course comes from a step that sees the tokens of the entries behind it, and the end
behind them. -/
theorem courseFrom_step {commas : CommaPosition} {state : State} {tokens : List Token}
    {past later : List Entry} {entry : Entry}
    (split : courseFrom commas state tokens = past ++ entry :: later) :
    ∃ ending, (∀ token ∈ ending.head?, token.kind = .eof) ∧
      (state.after past).step commas entry.token (later.map Entry.token ++ ending) =
        (entry.state, entry.pieces) := by
  induction tokens generalizing state past with
  | nil => exact absurd split.symm (by simp [courseFrom])
  | cons token rest ih =>
    rw [courseFrom] at split
    by_cases layout : token.isLayout = true
    · rw [if_pos layout] at split
      exact ih split
    rw [if_neg layout] at split
    by_cases ended : token.kind = .eof
    · rw [if_pos ended] at split
      exact absurd split.symm (by simp)
    rw [if_neg ended] at split
    cases past with
    | nil =>
      obtain ⟨rfl, rfl⟩ := List.cons.inj split
      obtain ⟨ending, significant, eof⟩ := significant_eq_written rest
      refine ⟨ending, eof, ?_⟩
      rw [map_token_courseFrom, ← significant, State.step_significant]
      rfl
    | cons first past =>
      obtain ⟨rfl, others⟩ := List.cons.inj split
      rw [State.after_cons]
      exact ih others

/-- What a step of a course sees: the tokens that are laid out behind its own, and the end. -/
theorem course_step {commas : CommaPosition} {tokens : List Token} {past later : List Entry}
    {entry : Entry} (split : course commas tokens = past ++ entry :: later) :
    ∃ ending, (∀ token ∈ ending.head?, token.kind = .eof) ∧
      (({} : State).after past).step commas entry.token (later.map Entry.token ++ ending) =
        (entry.state, entry.pieces) :=
  courseFrom_step split

/-! ## Comments -/

namespace Entry

variable {commas : CommaPosition} {state : State} {entry : Entry}

/-- A comment leaves the state as it was, at the start of a line. -/
theorem Leaves.comment (leaves : entry.Leaves commas state)
    (comment : entry.token.isComment = true) :
    entry.state = { state with lineStart := true, last := some entry.token } := by
  obtain ⟨following, -, next⟩ := leaves.place
  rw [next, State.place_comment commas state comment, State.comment_eq]

end Entry

/-- Comments leave the state as it was, at the start of a line. -/
theorem Walk.after_comments {commas : CommaPosition} {state : State} {entries : List Entry}
    (walk : Walk commas state entries) (comments : ∀ entry ∈ entries, entry.token.isComment = true) :
    (entries = [] ∧ state.after entries = state) ∨ ∃ last, last.isComment = true ∧
      state.after entries = { state with lineStart := true, last := some last } := by
  induction walk with
  | done state => exact Or.inl ⟨rfl, rfl⟩
  | next leaves others ih =>
    rename_i state entry entries
    obtain ⟨comment, rest⟩ := List.forall_mem_cons.1 comments
    right
    rw [State.after_cons]
    rcases ih rest with ⟨-, same⟩ | ⟨last, isComment, same⟩
    · exact ⟨entry.token, comment, by rw [same, leaves.comment comment]⟩
    · exact ⟨last, isComment, by rw [same, leaves.comment comment]⟩

/-! ## The level of a line -/

namespace State

/-- The levels that a token at the start of a line is indented beyond the clauses around it. -/
def headLevel (state : State) (token : Token) : Int :=
  if token.kind = .keyword then
    if (token.value = "WHEN" ∨ token.value = "ELSE") ∧ state.caseLevels ≠ [] then 1
    else if token.value = "END" ∧ state.caseLevels ≠ [] then 0
    else if Keyword.clauses.contains token.value || (token.value == "COMMENT" && state.inFunction) then
      if token.value = "ON" then 1 else 0
    else state.contentLevel
  else state.contentLevel

/-- Whether the next token starts a line: the line has begun, or the break before the first item is due,
and the token neither completes a name nor stays with its SELECT. -/
def HeadDue (state : State) (token : Token) : Prop :=
  state.lineStart = true ∨
    (state.awaitsFirstItem = true ∧ state.follows .dot = false ∧ token.staysWithSelect = false)

/-- Where a line is due, it has begun or some break is due. -/
theorem HeadDue.begun {state : State} {token : Token} (due : state.HeadDue token) :
    (state.lineStart || (state.awaitsFirstItem || state.afterBlock)) = true := by
  rcases due with begun | ⟨awaits, -, -⟩
  · simp [begun]
  · simp [awaits]

/-- Where a line is due, no name is completed. -/
theorem HeadDue.unglued {state : State} {token : Token} (due : state.HeadDue token) :
    state.gluesToDot = false := by
  rcases due with begun | ⟨-, noDot, -⟩
  · simp [gluesToDot, begun]
  · simp [gluesToDot, noDot]

/-- Whether a step writes a token at the start of a line, at a level. -/
def Heads (state : State) (token : Token) (level : Int) (result : Step) : Prop :=
  ∃ behind, result.2 = state.freshLine.2 ++ .indent level :: .word token :: behind

/-- A line that a token starts which is neither a clause nor an END is indented like an item, but for an
ELSE and the COMMENT of a function. -/
theorem headLevel_item (state : State) {token : Token}
    (noClause : token.isKeywordOf Keyword.clauses = false) (noEnd : token.isKeyword "END" = false) :
    state.headLevel token = state.contentLevel ∨
      (token.isKeyword "ELSE" = true ∧ state.headLevel token = 1) ∨
      (token.isKeyword "COMMENT" = true ∧ state.headLevel token = 0) := by
  by_cases word : token.kind = .keyword
  · have isWhen : "WHEN" ∈ Keyword.clauses := by decide
    have apart : "COMMENT" ∉ Keyword.clauses := by decide
    simp only [Token.isKeywordOf, Token.isKeyword, word, beq_self_eq_true, Bool.true_and,
      List.contains_eq_mem, decide_eq_false_iff_not, beq_eq_false_iff_ne, beq_iff_eq]
      at noClause noEnd ⊢
    have noWhen : token.value ≠ "WHEN" := fun same => noClause (same ▸ isWhen)
    by_cases branch : token.value = "ELSE" ∧ state.caseLevels ≠ []
    · exact Or.inr (Or.inl ⟨branch.1, by simp [headLevel, word, branch]⟩)
    by_cases comment : token.value = "COMMENT" ∧ state.inFunction = true
    · exact Or.inr (Or.inr ⟨comment.1, by simp [headLevel, word, comment, apart]⟩)
    · left
      have plain : (token.value == "COMMENT" && state.inFunction) = false := by simpa using comment
      rw [headLevel, if_pos word, if_neg (by simpa [noWhen] using branch), if_neg (by simp [noEnd]),
        plain, if_neg (by simpa using noClause)]
  · exact Or.inl (if_neg word)

/-- What a keyword says about a statement does not change the level of its line. -/
theorem note_headLevel (state : State) (token : Token) :
    (state.note token).headLevel token = state.headLevel token := by
  have routine : token.value = "COMMENT" → (state.note token).inFunction = state.inFunction := by
    intro same
    have others : "COMMENT" ∉ Keyword.definers ∧ "COMMENT" ∉ Keyword.clauses := by decide
    simp only [note, noteDefinition, noteColumns, same, List.contains_iff_mem, others, if_false]
    split_ifs <;> first | rfl | contradiction
  obtain ⟨inDefinition, awaitsColumns, inFunction, noted⟩ := state.note_eq token
  rw [noted] at routine ⊢
  unfold headLevel contentLevel top
  by_cases comment : token.value = "COMMENT"
  · rw [routine comment]
  · simp only [beq_false_of_ne comment, Bool.false_and]

/-- A token without a layout of its own starts a line where one is due. -/
theorem ordinary_heads {state : State} {token : Token} (due : state.HeadDue token) :
    state.Heads token (state.indentLevel + state.contentLevel) (state.ordinary token) := by
  obtain ⟨stays, word⟩ : ∃ stays, token.staysWithSelect = stays := ⟨_, rfl⟩
  have begun : (state.lineStart || (!stays && state.awaitsFirstItem || state.afterBlock)) = true := by
    rcases due with begun | ⟨awaits, -, other⟩
    · simp [begun]
    · simp [awaits, ← word, other]
  rw [ordinary_apart due.unglued word, dueBreak_eq begun]
  exact ⟨[], by simp [lead, begun, contentLevel, top]⟩

/-- Verbatim text starts a line where one is due. -/
theorem verbatim_heads {state : State} {token : Token} (due : state.HeadDue token) :
    state.Heads token (state.indentLevel + state.contentLevel) (state.verbatim token) := by
  have begun := due.begun
  rw [verbatim_apart due.unglued, dueBreak_eq begun]
  exact ⟨[], by simp [lead, begun, contentLevel, top]⟩

/-- An opening parenthesis starts a line where one is due. -/
theorem openParen_heads {state : State} {token : Token} (due : state.HeadDue token)
    (following : List Token) :
    state.Heads token (state.indentLevel + state.contentLevel) (state.openParen token following) := by
  have begun := due.begun
  rw [openParen_eq state token rfl rfl rfl, Bool.or_assoc, begun, dueBreak_eq begun]
  exact ⟨_, by simp only [if_true, List.append_assoc, List.singleton_append]; rfl⟩

/-- A keyword starts a line where one is due. -/
theorem keyword_heads {state : State} {token : Token} (word : token.kind = .keyword)
    (due : state.HeadDue token) (following : List Token) :
    state.Heads token (state.indentLevel + state.headLevel token) (state.keyword token following) := by
  have line (extra : Int) : state.Heads token (state.indentLevel + extra)
      (state.keywordLine token extra) := ⟨[], by rw [keywordLine_eq]⟩
  rw [headLevel, if_pos word]
  by_cases opens : token.value = "CASE"
  · have noClause : "CASE" ∉ Keyword.clauses := by decide
    rw [keyword_case state opens, openCase_eq]
    exact ⟨[], by simp [opens, noClause]⟩
  by_cases branch : (token.value = "WHEN" ∨ token.value = "ELSE") ∧ state.caseLevels ≠ []
  · rw [if_pos branch, keyword_branch state branch.1 branch.2]
    exact line 1
  rw [if_neg branch]
  by_cases closes : token.value = "END" ∧ state.caseLevels ≠ []
  · obtain ⟨level, outer, innermost⟩ := List.exists_cons_of_ne_nil closes.2
    rw [if_pos closes, keyword_end state closes.1 innermost, closeCase_eq, Int.add_zero]
    exact ⟨[], rfl⟩
  rw [if_neg closes, keyword_other state opens branch closes]
  split
  · rw [clause_eq]
    exact ⟨[], rfl⟩
  · exact ordinary_heads due

/-- Where a line is due, a word, a literal, an operator or an opening parenthesis starts one. -/
theorem place_heads (commas : CommaPosition) {state : State} {token : Token}
    (heads : token.kind.heads = true) (due : state.HeadDue token) (following : List Token) :
    state.Heads token (state.indentLevel + state.headLevel token)
      (state.place commas token following) := by
  have noMark {kind : Kind} (same : token.kind = kind) (other : kind.heads = false) : False :=
    Token.kind_ne_of_heads heads other same
  have item (noWord : token.kind ≠ .keyword) : state.headLevel token = state.contentLevel :=
    if_neg noWord
  cases state.place_handled commas token following with
  | comment kind same =>
    rw [Token.isComment_of_heads heads] at kind
    cases kind
  | semicolon kind same => exact (noMark kind rfl).elim
  | openParen kind same =>
    rw [same, item (by simp [kind])]
    exact openParen_heads due following
  | closeParen kind same => exact (noMark kind rfl).elim
  | comma kind same => exact (noMark kind rfl).elim
  | dot kind same => exact (noMark kind rfl).elim
  | keyword kind same =>
    obtain ⟨line, last, awaits, -⟩ := state.note_same token
    have told : (state.note token).HeadDue token := by
      rw [HeadDue, line, awaits, follows, last]
      exact due
    obtain ⟨behind, pieces⟩ := keyword_heads kind told following
    refine ⟨behind, ?_⟩
    rw [same, pieces, note_headLevel, (state.note_levels token).1, freshLine_eq, freshLine_eq, line]
  | verbatim kind same =>
    rw [same, item (by simp [kind])]
    exact verbatim_heads due
  | ordinary kind same =>
    rw [same, item (Kind.ne_of_isOrdinary kind rfl)]
    exact ordinary_heads due

end State

/-- Where a line is due, a word, a literal, an operator or an opening parenthesis heads one. -/
theorem Entry.Leaves.breaks_head {commas : CommaPosition} {state : State} {entry : Entry}
    (leaves : entry.Leaves commas state) (heads : entry.token.kind.heads = true)
    (due : state.HeadDue entry.token) :
    entry.Breaks state (state.indentLevel + state.headLevel entry.token) := by
  obtain ⟨following, pieces, -⟩ := leaves.place
  obtain ⟨behind, shape⟩ := State.place_heads commas heads due following
  exact breaks_of_pieces rfl (pieces.trans shape)

end SqlLayout
