import SqlLayout.Proofs.LineHeads

/-!
# Comments are aligned with what they precede

A comment has its line to itself. It is written before the token that it precedes is laid out, so its
indentation is settled by a look ahead. The look sees that token (`nextMeaningful_of_comments`) and finds
the level at which it will head its own line, with one exception (`State.commentLevel_eq`): the COMMENT
of a function starts a line like a clause, but a comment before it is indented like an item. So
comments are aligned with what they precede exactly where this does not happen (`comment_aligned`).
-/

namespace SqlLayout

/-- Behind comments the look ahead of a comment finds the next token that is none. -/
theorem nextMeaningful_of_comments {others : List Token} {next : Token}
    (comments : ∀ other ∈ others, other.isComment = true) (visible : next.isLayout = false)
    (meaningful : next.isComment = false) (rest : List Token) :
    nextMeaningful (others ++ next :: rest) = some next := by
  have skipped : others.find? (fun token => !token.isLayout && !token.isComment) = none := by
    rw [List.find?_eq_none]
    intro other member
    simp [comments other member]
  rw [nextMeaningful, List.find?_append, skipped, Option.none_or]
  exact List.find?_cons_of_pos (by simp [visible, meaningful])

namespace State

/-- Whether a comment before a token is indented beyond it: the token is the COMMENT of a function, which
starts a line like a clause, where items are indented. -/
def strays (state : State) (token : Token) : Bool :=
  token.isKeyword "COMMENT" && state.inFunction && state.contentLevel == 1

/-- A token that a comment is indented beyond is at the level of clauses. -/
theorem headLevel_of_strays {state : State} {token : Token} (strays : state.strays token = true) :
    state.headLevel token = 0 := by
  rw [State.strays, Bool.and_eq_true, Bool.and_eq_true] at strays
  obtain ⟨⟨word, routine⟩, -⟩ := strays
  have value := Token.value_of_isKeyword word
  rw [headLevel, if_pos (Token.kind_of_isKeyword word)]
  simp [value, routine]

/-- A comment is indented like the token that it precedes, or a level beyond it. -/
theorem commentLevel_eq (state : State) {token : Token} {following : List Token}
    (next : nextMeaningful following = some token) :
    state.commentLevel following =
      state.headLevel token + if state.strays token then 1 else 0 := by
  have near := state.contentLevel_cases
  rw [commentLevel, next, headLevel]
  dsimp only
  by_cases word : token.kind = .keyword
  · have marked : token.isKeyword "COMMENT" = (token.value == "COMMENT") := by
      rw [Token.isKeyword, word]
      rfl
    have apart : "ON" ∈ Keyword.clauses ∧ "COMMENT" ∉ Keyword.clauses := by decide
    rw [if_pos word, if_pos word, strays, marked]
    by_cases branch : (token.value = "WHEN" ∨ token.value = "ELSE") ∧ state.caseLevels ≠ []
    · have other : token.value ≠ "COMMENT" := by
        rcases branch.1 with same | same <;> simp [same]
      simp [branch, other]
    by_cases closes : token.value = "END" ∧ state.caseLevels ≠ []
    · simp [closes]
    rw [if_neg branch, if_neg branch, if_neg closes, if_neg closes]
    by_cases on : token.value = "ON"
    · simp [on, apart.1]
    by_cases clause : token.value ∈ Keyword.clauses
    · have other : token.value ≠ "COMMENT" := fun same => apart.2 (same ▸ clause)
      simp [on, clause, other]
    by_cases routine : token.value = "COMMENT" ∧ state.inFunction = true
    · rcases near with level | level <;> simp [routine, apart.2, level]
    · have plain : (token.value == "COMMENT" && state.inFunction) = false := by
        simpa using routine
      simp [on, clause, plain]
  · have noWord : state.strays token = false := by
      rw [strays, Token.isKeyword_of_kind word, Bool.false_and, Bool.false_and]
    simp [word, noWord]

end State

namespace Entry

variable {commas : CommaPosition} {state : State} {entry : Entry}

/-- A comment stands behind the indentation of its line, perhaps with a blank line above, and a line
break stands behind it. -/
theorem pieces_of_comment {following : List Token}
    (step : state.step commas entry.token following = (entry.state, entry.pieces))
    (comment : entry.token.isComment = true) :
    ∃ blankLine, (blankLine = [] ∨ blankLine = [.newline]) ∧
      entry.gap = state.freshLine.2 ++ blankLine ++
        [.indent (state.indentLevel + state.commentLevel following)] ∧
      entry.pieces = entry.gap ++ [.word entry.token, .newline] := by
  obtain ⟨blankLine, isBlank⟩ : ∃ blankLine : List Piece,
    (if state.statementStart || state.groupsComment then [] else [.newline]) = blankLine := ⟨_, rfl⟩
  have few : blankLine = [] ∨ blankLine = [.newline] := by
    rw [← isBlank]
    split
    · exact Or.inl rfl
    · exact Or.inr rfl
  have placed := (placed step).1
  rw [State.place_comment commas state comment] at placed
  have pieces : entry.pieces = (state.freshLine.2 ++ blankLine ++
      [.indent (state.indentLevel + state.commentLevel following)]) ++
        .word entry.token :: [.newline] := by
    rw [placed, State.comment_eq, isBlank]
    simp
  have spacing : ∀ piece ∈ state.freshLine.2 ++ blankLine ++
      [.indent (state.indentLevel + state.commentLevel following)], piece.isGap = true := by
    rw [State.freshLine_eq]
    rcases few with rfl | rfl <;> cases state.lineStart <;> simp [Piece.isGap]
  have gap : entry.gap = state.freshLine.2 ++ blankLine ++
      [.indent (state.indentLevel + state.commentLevel following)] := by
    rw [Entry.gap, pieces]
    exact State.takeWhile_isGap spacing entry.token _
  exact ⟨blankLine, few, gap, by rw [gap]; exact pieces⟩

/-- A comment heads a line at the level that the look ahead settles, and its line ends behind it. -/
theorem comment_headsLine {past : List Entry} (walk : Walk commas {} past) {following : List Token}
    (step : (({} : State).after past).step commas entry.token following =
      (entry.state, entry.pieces))
    (comment : entry.token.isComment = true) (options : Options) :
    HeadsLine options past entry (options.indentSize * ((({} : State).after past).indentLevel +
        (({} : State).after past).commentLevel following)).toNat ∧
      writtenText options ((past ++ [entry]).flatMap Entry.pieces) =
        textBefore options past entry ++ (entry.token.shown options.keywordCase).toList ++ ['\n'] := by
  obtain ⟨blankLine, few, gap, pieces⟩ := pieces_of_comment step comment
  constructor
  · refine headsLine_of_gap gap ?_
    rcases few with rfl | rfl
    · rw [List.append_nil]
      exact walk.ended_freshLine options
    · right
      rw [← List.append_assoc, writtenText_append]
      exact List.getLast?_concat
  · rw [List.flatMap_append, List.flatMap_singleton, pieces, textBefore, ← List.append_assoc,
      writtenText_append, List.append_assoc (writtenText _ _)]
    rfl

end Entry

/-- Comments are aligned with what they precede. Every comment heads a line, and its line ends behind
it. If the next token that is no comment is a word, a literal, an operator or an opening parenthesis, it
heads a line with the same indentation, unless it is the COMMENT of a function: there the comment is
indented a level more where items are. -/
theorem comment_aligned (options : Options) (tokens : List Token) {before later : List Entry}
    {note : Entry} (split : course options.commaPosition tokens = before ++ note :: later)
    (comment : note.token.isComment = true) :
    ∃ width, HeadsLine options before note width ∧
      writtenText options ((before ++ [note]).flatMap Entry.pieces) =
        textBefore options before note ++ (note.token.shown options.keywordCase).toList ++ ['\n'] ∧
      ∀ others next rest, later = others ++ next :: rest →
        (∀ other ∈ others, other.token.isComment = true) → next.token.kind.heads = true →
        ∃ indent, HeadsLine options (before ++ note :: others) next indent ∧
          width = indent + if (({} : State).after before).strays next.token then
            options.indentSize.toNat else 0 := by
  obtain ⟨walk, leaves, inner⟩ := walk_split split
  obtain ⟨ending, -, step⟩ := course_step split
  have placed := Entry.comment_headsLine walk step comment options
  refine ⟨_, placed.1, placed.2, ?_⟩
  intro others next rest behind comments heads
  have regrouped : course options.commaPosition tokens =
      (before ++ note :: others) ++ next :: rest := by
    rw [split, behind, List.append_assoc, List.cons_append]
  obtain ⟨reached, last, -⟩ := walk_split regrouped
  have grounded := walk.grounded grounded_initial
  -- Between the comment and the next token only the line and the last token change.
  obtain ⟨marked, same⟩ : ∃ marked, (({} : State).after (before ++ note :: others)) =
      { ({} : State).after before with lineStart := true, last := some marked } := by
    have run : Walk options.commaPosition (({} : State).after before) (note :: others) := by
      rw [behind] at inner
      exact Walk.next leaves inner.append.1
    have after := run.after_comments (List.forall_mem_cons.2 ⟨comment, comments⟩)
    rw [State.after_append]
    rcases after with ⟨none, -⟩ | ⟨marked, -, same⟩
    · cases none
    · exact ⟨marked, same⟩
  have line := last.breaks_head heads (Or.inl (by rw [same]))
  have meaningful : nextMeaningful (later.map Entry.token ++ ending) = some next.token := by
    have noComment : next.token.isComment = false := by
      rw [Token.isComment]
      cases kind : next.token.kind with
      | comment => exact absurd kind (Token.kind_ne_of_heads heads rfl)
      | blockComment => exact absurd kind (Token.kind_ne_of_heads heads rfl)
      | _ => rfl
    have skipped : ∀ other ∈ others.map Entry.token, other.isComment = true := by
      simpa using comments
    have found := nextMeaningful_of_comments skipped last.visible noComment
      (rest.map Entry.token ++ ending)
    rw [behind, List.map_append, List.map_cons, List.append_assoc]
    exact found
  have level := State.commentLevel_eq (({} : State).after before) meaningful
  refine ⟨_, line.headsLine reached options, ?_⟩
  have sameLevel : (({} : State).after (before ++ note :: others)).indentLevel +
      (({} : State).after (before ++ note :: others)).headLevel next.token =
        (({} : State).after before).indentLevel +
          (({} : State).after before).headLevel next.token := by
    rw [same]
    rfl
  rw [level, sameLevel]
  cases strays : (({} : State).after before).strays next.token with
  | false => simp
  | true =>
    rw [State.headLevel_of_strays strays, if_pos rfl, Int.zero_add, Int.add_zero]
    exact width_succ options.indentSize grounded.level

/-- A comment before the COMMENT of a function is indented by a level, though the COMMENT stands at the
margin. -/
theorem comment_aligned_routine :
    format {} "create function f() returns int -- doc\ncomment 'x' return 1" =
      "CREATE FUNCTION f()\nRETURNS INT\n\n  -- doc\nCOMMENT 'x'\nRETURN 1\n" ∧
    ∃ before note next rest,
      course .trailing (fuse (tokenize
        "create function f() returns int -- doc\ncomment 'x' return 1")) =
          before ++ note :: next :: rest ∧
      note.token.isComment = true ∧ next.token.kind.heads = true ∧
      (({} : State).after before).strays next.token = true ∧
      HeadsLine {} before note 2 ∧ HeadsLine {} (before ++ [note]) next 0 := by
  let entries := course .trailing (fuse (tokenize
    "create function f() returns int -- doc\ncomment 'x' return 1"))
  let before := entries.take 7
  let note := entries[7]!
  let next := entries[8]!
  let rest := entries.drop 9
  have facts : format {} "create function f() returns int -- doc\ncomment 'x' return 1" =
        "CREATE FUNCTION f()\nRETURNS INT\n\n  -- doc\nCOMMENT 'x'\nRETURN 1\n" ∧
      entries = before ++ note :: next :: rest ∧ note.token.isComment = true ∧
      next.token.kind.heads = true ∧ (({} : State).after before).strays next.token = true ∧
      (lastLine (textBefore {} (before ++ [note]) next)).length = 0 := by
    decide +kernel
  obtain ⟨text, split, comment, heads, strays, spaces⟩ := facts
  obtain ⟨width, line, -, aligned⟩ := comment_aligned {} _ split comment
  obtain ⟨indent, nextLine, sum⟩ := aligned [] next rest rfl
    (fun _ member => absurd member List.not_mem_nil) heads
  have margin : indent = 0 := by
    rw [nextLine, List.length_replicate] at spaces
    exact spaces
  have level : width = 2 := by
    rw [sum, margin, strays]
    rfl
  subst margin level
  exact ⟨text, before, note, next, rest, split, comment, heads, strays, line, nextLine⟩

end SqlLayout
