import SqlLayout.Proofs.InlineParens

/-!
# Selections are spread over lines

A SELECT looks ahead to see whether its selection has more than one item (`Selection.selectionCount`),
and only then the break before the first item is due. It stays due while comments and the words that
belong to the SELECT are laid out (`Walk.selecting`), and the first item takes it. Behind that the
commas decide: every comma between items ends its line. Both views agree on what an item is, so of two
or more items every one starts a line a level beyond the SELECT, and a single one stays on the line of
the SELECT (`selection_aligned`).
-/

namespace SqlLayout

/-- Whether entries behind a SELECT are a run of words that stay with it, with comments in between, the
list of what is selected, and others that stand behind the list. -/
structure Selection (run list rest : List Entry) : Prop where
  /-- The run consists of words that stay with the SELECT and of comments. -/
  words : ∀ entry ∈ run, entry.token.isComment = true ∨ entry.token.staysWithSelect = true
  /-- No such word comes next. -/
  stops : ∀ entry ∈ list.head?, entry.token.staysWithSelect = false
  /-- The list is well nested. -/
  nested : WellNested (list.map Entry.token)
  /-- No clause stands in the list outside of brackets. -/
  noClause : ∀ token ∈ outside [] (list.map Entry.token), token.isKeywordOf Keyword.clauses = false
  /-- The list ends before a clause, at the end of the statement or of the parenthesis around it. -/
  ends : ∀ entry ∈ rest.head?, entry.token.isKeywordOf Keyword.clauses = true ∨
    entry.token.kind = .semicolon ∨ entry.token.kind = .rparen

/-- Whether entries are a selection can be decided. -/
instance (run list rest : List Entry) : Decidable (Selection run list rest) :=
  decidable_of_iff
    ((∀ entry ∈ run, entry.token.isComment = true ∨ entry.token.staysWithSelect = true) ∧
      (∀ entry ∈ list.head?, entry.token.staysWithSelect = false) ∧
      WellNested (list.map Entry.token) ∧
      (∀ token ∈ outside [] (list.map Entry.token), token.isKeywordOf Keyword.clauses = false) ∧
      ∀ entry ∈ rest.head?, entry.token.isKeywordOf Keyword.clauses = true ∨
        entry.token.kind = .semicolon ∨ entry.token.kind = .rparen)
    ⟨fun ⟨words, stops, nested, noClause, ends⟩ => ⟨words, stops, nested, noClause, ends⟩,
      fun ⟨words, stops, nested, noClause, ends⟩ => ⟨words, stops, nested, noClause, ends⟩⟩

/-! ## What the SELECT sees -/

/-- A word that stays with its SELECT leaves the brackets alone, and so does a comment; neither is a
clause or a comma. -/
theorem Token.nests_word {token : Token}
    (word : token.isComment = true ∨ token.staysWithSelect = true) :
    (∀ brackets, token.nests brackets = some brackets) ∧
      token.isKeywordOf Keyword.clauses = false ∧ token.kind ≠ .comma := by
  rcases word with comment | stays
  · refine ⟨nests_comment comment, ?_, kind_ne_of_isComment comment rfl⟩
    rw [isKeywordOf, beq_false_of_ne (kind_ne_of_isComment comment rfl), Bool.false_and]
  · have noClause : "DISTINCT" ∉ Keyword.clauses ∧ "ALL" ∉ Keyword.clauses := by decide
    rw [staysWithSelect, Bool.or_eq_true] at stays
    rcases stays with word | word
    · have kind := kind_of_isKeyword word
      have value := value_of_isKeyword word
      simp [nests, isKeyword, isKeywordOf, kind, value, Kind.endsStatement, noClause]
    · have kind := kind_of_isKeyword word
      have value := value_of_isKeyword word
      simp [nests, isKeyword, isKeywordOf, kind, value, Kind.endsStatement, noClause]

/-- Words that stay with their SELECT and comments are well nested, and the look at the selection passes
over them. -/
theorem selectionCommas_words {words : List Token}
    (run : ∀ token ∈ words, token.isComment = true ∨ token.staysWithSelect = true) :
    WellNested words ∧ ∀ back, selectionCommas 0 0 (words ++ back) = selectionCommas 0 0 back := by
  induction words with
  | nil => exact ⟨rfl, fun back => rfl⟩
  | cons token rest ih =>
    obtain ⟨word, others⟩ := List.forall_mem_cons.1 run
    obtain ⟨nests, noClause, noComma⟩ := Token.nests_word word
    obtain ⟨nested, passes⟩ := ih others
    refine ⟨?_, fun back => ?_⟩
    · rw [WellNested, openBrackets, nests, Option.bind_some]
      exact nested
    · have step := selectionCommas_cons (nests []) (fun _ => noClause) (rest ++ back)
      rw [if_neg (fun both => noComma both.2), Nat.zero_add] at step
      exact step.trans (passes back)

/-- A selection ends before a clause, a semicolon, a closing parenthesis or the end of the source. -/
theorem selectionCommas_ended {tokens : List Token}
    (ended : ∀ token ∈ tokens.head?, token.kind = .eof ∨ token.isKeywordOf Keyword.clauses = true ∨
      token.kind = .semicolon ∨ token.kind = .rparen) : selectionCommas 0 0 tokens = 0 := by
  cases tokens with
  | nil => rfl
  | cons token rest =>
    rw [selectionCommas]
    rcases ended token rfl with kind | clause | kind | kind
    · simp [kind]
    · have word : token.kind = .keyword := by
        rw [Token.isKeywordOf, Bool.and_eq_true] at clause
        simpa using clause.1
      have noCase : token.isKeyword "CASE" = false := by
        have noClause : "CASE" ∉ Keyword.clauses := by decide
        rw [Bool.eq_false_iff]
        intro case
        rw [Token.isKeywordOf, Token.value_of_isKeyword case, Bool.and_eq_true] at clause
        exact noClause (List.contains_iff_mem.1 clause.2)
      simp [word, noCase, clause]
    · simp [kind]
    · simp [kind]

/-- The tokens of the run of a selection are words that stay with the SELECT and comments. -/
theorem Selection.tokens {run list rest : List Entry} (selection : Selection run list rest) :
    ∀ token ∈ run.map Entry.token, token.isComment = true ∨ token.staysWithSelect = true := by
  simpa using selection.words

/-- A SELECT counts the items of its selection. -/
theorem Selection.selectionCount {run list rest : List Entry} (selection : Selection run list rest)
    {ending : List Token} (eof : ∀ token ∈ ending.head?, token.kind = .eof) :
    selectionCount ((run ++ (list ++ rest)).map Entry.token ++ ending) =
      itemCount (list.map Entry.token) := by
  have ended : ∀ token ∈ (rest.map Entry.token ++ ending).head?, token.kind = .eof ∨
      token.isKeywordOf Keyword.clauses = true ∨ token.kind = .semicolon ∨ token.kind = .rparen := by
    cases behind : rest with
    | nil => exact fun token member => Or.inl (eof token member)
    | cons entry others =>
      intro token member
      obtain rfl : entry.token = token := Option.some.inj member
      exact Or.inr (selection.ends entry (by rw [behind]; rfl))
  have items := selectionCommas_append selection.nested selection.noClause
    (rest.map Entry.token ++ ending)
  rw [SqlLayout.selectionCount, itemCount, List.map_append, List.map_append, List.append_assoc,
    List.append_assoc, (selectionCommas_words selection.tokens).2]
  exact congrArg (· + 1) (items.trans (by rw [selectionCommas_ended ended, Nat.add_zero]))

/-! ## From the SELECT to the first item -/

namespace State

/-- Whether a state is before the first item of a selection, which is to start a line or not. -/
structure Selecting (state : State) (awaits : Bool) : Prop where
  /-- The break before the item is due, or it is not. -/
  awaits : state.awaitsFirstItem = awaits
  /-- The statement has begun. -/
  begun : state.statementStart = false
  /-- No block has just closed. -/
  noBlock : state.afterBlock = false
  /-- The item completes no name. -/
  noDot : state.follows .dot = false

/-- A SELECT starts a line at the level of clauses, and the break before the first item is due if there
is more than one. -/
theorem place_select (commas : CommaPosition) (state : State) {token : Token}
    (select : token.isKeyword "SELECT" = true) (following : List Token) :
    state.place commas token following =
      ({ state.note token with
          lineStart := false
          statementStart := false
          awaitsFirstItem := 1 < selectionCount following },
        state.freshLine.2 ++ [.indent state.indentLevel, .word token]) := by
  have value := Token.value_of_isKeyword select
  have isClause : Keyword.clauses.contains "SELECT" = true := by decide
  have breaks : (state.note token).freshLine.2 = state.freshLine.2 := by
    rw [freshLine_eq, freshLine_eq, (state.note_same token).1]
  rw [place, Token.kind_of_isKeyword select]
  dsimp only
  rw [keyword_other _ (by simp [value]) (by simp [value]) (by simp [value]), value, isClause,
    Bool.true_or, if_pos rfl, clause_eq, if_pos value, if_neg (by simp [value]), Int.add_zero, breaks,
    (state.note_levels token).1]

/-- A word that stays with its SELECT is ordinary. -/
theorem place_word (commas : CommaPosition) (state : State) {token : Token}
    (stays : token.staysWithSelect = true) (following : List Token) :
    state.place commas token following = (state.note token).ordinary token := by
  have plain {word : String} (same : token.isKeyword word = true)
      (other : word ≠ "CASE" ∧ word ≠ "WHEN" ∧ word ≠ "ELSE" ∧ word ≠ "END" ∧ word ≠ "COMMENT")
      (noClause : Keyword.clauses.contains word = false) :
      state.place commas token following = (state.note token).ordinary token := by
    have value := Token.value_of_isKeyword same
    rw [place, Token.kind_of_isKeyword same]
    dsimp only
    rw [keyword_other _ (by simp [value, other]) (by simp [value, other]) (by simp [value, other]),
      value, noClause, beq_false_of_ne other.2.2.2.2, Bool.false_and, Bool.or_self,
      if_neg Bool.false_ne_true]
  rw [Token.staysWithSelect, Bool.or_eq_true] at stays
  rcases stays with word | word
  · exact plain word (by decide) (by decide)
  · exact plain word (by decide) (by decide)

end State

namespace Entry

variable {commas : CommaPosition} {state : State} {entry : Entry} {awaits : Bool}

/-- Behind a SELECT the break before the first item is due if there is more than one, and the levels are
those before it. -/
theorem selecting_select {following : List Token}
    (step : state.step commas entry.token following = (entry.state, entry.pieces))
    (select : entry.token.isKeyword "SELECT" = true) (noBlock : state.afterBlock = false) :
    entry.Breaks state state.indentLevel ∧ entry.state.frame = state.frame ∧
      entry.state.lineStart = false ∧
      entry.state.Selecting (decide (1 < selectionCount following)) := by
  have word := Token.kind_of_isKeyword select
  obtain ⟨pieces, next⟩ := placed step
  rw [State.place_select commas state select] at pieces next
  obtain ⟨-, -, -, sameBlock⟩ := state.note_same entry.token
  have frame := state.note_frame entry.token
  have selecting : entry.state.Selecting (decide (1 < selectionCount following)) := by
    rw [next]
    exact ⟨rfl, rfl, sameBlock.trans noBlock, by simp [State.follows, word]⟩
  exact ⟨breaks_of_pieces rfl pieces, by rw [next]; exact frame, by rw [next], selecting⟩

/-- A word that stays with its SELECT goes on with the line, and the first item comes next. -/
theorem Leaves.selecting_word (leaves : entry.Leaves commas state) (selecting : state.Selecting awaits)
    (stays : entry.token.staysWithSelect = true) :
    entry.state.Selecting awaits ∧ entry.state.lineStart = false ∧ Piece.newline ∉ entry.pieces := by
  obtain ⟨isAwaited, begun, noBlock, noDot⟩ := selecting
  obtain ⟨-, sameLast, sameItem, sameBlock⟩ := state.note_same entry.token
  obtain ⟨following, pieces, next⟩ := leaves.place
  have apart : (state.note entry.token).gluesToDot = false := by
    rw [State.gluesToDot, State.follows, sameLast, ← State.follows, noDot, Bool.false_and]
  have word : entry.token.kind ≠ .dot := by
    rw [Token.staysWithSelect, Bool.or_eq_true] at stays
    simp [stays.elim Token.kind_of_isKeyword Token.kind_of_isKeyword]
  rw [Token.staysWithSelect] at stays
  rw [State.place_word commas state stays, State.ordinary_apart apart stays, sameBlock, noBlock]
    at pieces next
  rw [pieces, next]
  exact ⟨⟨sameItem.trans isAwaited, rfl, rfl, by simp [State.follows, word]⟩, rfl,
    by simp [State.newline_not_mem_lead]⟩

/-- Words that stay with their SELECT and comments leave the first item to come next. -/
theorem Leaves.selecting (leaves : entry.Leaves commas state) (selecting : state.Selecting awaits)
    (word : entry.token.isComment = true ∨ entry.token.staysWithSelect = true) :
    entry.state.Selecting awaits := by
  rcases word with comment | stays
  · obtain ⟨isAwaited, begun, noBlock, -⟩ := selecting
    have noDot : entry.token.kind ≠ .dot := Token.kind_ne_of_isComment comment rfl
    rw [leaves.comment comment]
    exact ⟨isAwaited, begun, noBlock, by simp [State.follows, noDot]⟩
  · exact (leaves.selecting_word selecting stays).1

end Entry

/-- Behind a run of words that stay with their SELECT, with comments in between, the first item comes
next. Without comments the line goes on. -/
theorem Walk.selecting {commas : CommaPosition} {state : State} {run : List Entry} {awaits : Bool}
    (walk : Walk commas state run) (selecting : state.Selecting awaits)
    (words : ∀ entry ∈ run, entry.token.isComment = true ∨ entry.token.staysWithSelect = true) :
    (state.after run).Selecting awaits ∧
      (state.lineStart = false → (∀ entry ∈ run, entry.token.isComment = false) →
        (state.after run).lineStart = false ∧ ∀ entry ∈ run, Piece.newline ∉ entry.pieces) := by
  induction walk with
  | done state =>
    exact ⟨selecting, fun inLine _ => ⟨inLine, fun _ member => absurd member List.not_mem_nil⟩⟩
  | next leaves others ih =>
    rw [List.forall_mem_cons] at words
    obtain ⟨later, goesOn⟩ := ih (leaves.selecting selecting words.1) words.2
    refine ⟨later, fun _ noComment => ?_⟩
    rw [List.forall_mem_cons] at noComment
    have stays := words.1.resolve_left (by simp [noComment.1])
    obtain ⟨-, inLine, flat⟩ := leaves.selecting_word selecting stays
    obtain ⟨within, flats⟩ := goesOn inLine noComment.2
    exact ⟨within, List.forall_mem_cons.2 ⟨flat, flats⟩⟩

/-! ## Items of a selection -/

/-- An item of a selection is indented one level. -/
theorem State.Selecting.contentLevel {state : State} {awaits : Bool}
    (selecting : state.Selecting awaits) (query : state.top = none ∨ state.top = some .subquery) :
    state.contentLevel = 1 := by
  rw [State.contentLevel, selecting.begun]
  rcases query with top | top <;> rw [top] <;> rfl

/-- A SELECT starts a line. Behind it and its run the levels are those before it, and the break before the
first item is due if there is more than one; without comments the line goes on. -/
theorem Selection.opens {commas : CommaPosition} {tokens : List Token}
    {before run list rest : List Entry} {select : Entry} (selection : Selection run list rest)
    (split : course commas tokens = before ++ select :: (run ++ (list ++ rest)))
    (word : select.token.isKeyword "SELECT" = true)
    (query : (({} : State).after before).top ≠ some .grouping) :
    select.Breaks (({} : State).after before) (({} : State).after before).indentLevel ∧
      (select.state.after run).frame = (({} : State).after before).frame ∧
      (select.state.after run).Selecting (decide (1 < itemCount (list.map Entry.token))) ∧
      select.state.lineStart = false ∧
      ((∀ entry ∈ run, entry.token.isComment = false) →
        (select.state.after run).lineStart = false ∧
          ∀ entry ∈ run, Piece.newline ∉ entry.pieces) := by
  obtain ⟨walk, -, inner⟩ := walk_split split
  obtain ⟨ending, eof, step⟩ := course_step split
  have noBlock : (({} : State).after before).afterBlock = false := by
    rw [Bool.eq_false_iff]
    intro due
    exact query ((walk.consistent {}).block due)
  obtain ⟨begins, frame, inLine, opened⟩ := Entry.selecting_select step word noBlock
  rw [selection.selectionCount eof] at opened
  have words := inner.append.1
  obtain ⟨selecting, goesOn⟩ := words.selecting opened selection.words
  have sameFrame := words.frame_of_nested (selectionCommas_words selection.tokens).1
  exact ⟨begins, sameFrame.trans frame, selecting, inLine, goesOn inLine⟩

/-- The first token of an item of a selection is no clause. -/
theorem Selection.noClause_first {run front back rest : List Entry} {first : Entry}
    (selection : Selection run (front ++ first :: back) rest)
    (nested : WellNested (front.map Entry.token)) :
    first.token.isKeywordOf Keyword.clauses = false := by
  have whole := selection.nested
  have noClause := selection.noClause
  rw [List.map_append, List.map_cons] at whole noClause
  exact noClause first.token (nested.mem_outside whole)

/-- Selections are spread over lines. Wherever a SELECT stands in no parenthesis, or in one around a
query, it starts a line. If its list has two or more items, every one of them starts a line a level beyond
the SELECT. If it has one item, this stays on the line of the SELECT, unless a comment stands before it
or it begins with a keyword of a CASE. -/
theorem selection_aligned (options : Options) (trailing : options.commaPosition = .trailing)
    (tokens : List Token) {before run list rest : List Entry} {select : Entry}
    (split : course options.commaPosition tokens = before ++ select :: (run ++ (list ++ rest)))
    (word : select.token.isKeyword "SELECT" = true)
    (query : (({} : State).after before).top = none ∨
      (({} : State).after before).top = some .subquery)
    (selection : Selection run list rest) :
    ∃ width, HeadsLine options before select width ∧
      (1 < itemCount (list.map Entry.token) → ∀ front first back, list = front ++ first :: back →
        StartsItem front → first.token.beginsItem = true → first.token.isKeyword "COMMENT" = false →
        HeadsLine options (before ++ select :: (run ++ front)) first
          (width + options.indentSize.toNat)) ∧
      (itemCount (list.map Entry.token) = 1 → (∀ entry ∈ run, entry.token.isComment = false) →
        ∀ first back, list = first :: back → first.token.beginsItem = true →
        first.token.isKeyword "COMMENT" = false → first.token.isKeyword "CASE" = false →
        first.token.isKeyword "ELSE" = false →
        SameLine before select (before ++ select :: run) first) := by
  rw [trailing] at split
  have inQuery : (({} : State).after before).top ≠ some .grouping := by
    rcases query with top | top <;> simp [top]
  obtain ⟨walk, leaves, inner⟩ := walk_split split
  obtain ⟨begins, frame, selecting, inLine, goesOn⟩ := selection.opens split word inQuery
  obtain ⟨level, constructs⟩ : (select.state.after run).indentLevel =
      (({} : State).after before).indentLevel ∧
      (select.state.after run).constructs = (({} : State).after before).constructs :=
    ⟨congrArg Frame.level frame, congrArg Frame.constructs frame⟩
  have sameTop : (select.state.after run).top = (({} : State).after before).top := by
    rw [State.top, constructs, State.top]
  refine ⟨_, begins.headsLine walk options, ?_, ?_⟩
  · rintro several front first back rfl starts item noComment
    have items := inner.append.2.append.1
    -- Only the first item takes the break that the SELECT has asked for; a comma has ended the line before
    -- any other one.
    have due (none : front = []) : (select.state.after run).HeadDue first.token := by
      refine Or.inr ⟨selecting.awaits.trans (decide_eq_true several), selecting.noDot, ?_⟩
      exact selection.stops first (by simp [none])
    have content : (select.state.after run).contentLevel = 1 :=
      selecting.contentLevel (by rwa [sameTop])
    have line := starts.breaks items selection.nested (by rwa [sameTop]) selecting.begun due item
      (selection.noClause_first starts.nested) (fun _ => content)
      (fun comment => by rw [noComment] at comment; cases comment)
    have regrouped : course .trailing tokens =
        (before ++ select :: (run ++ front)) ++ first :: (back ++ rest) := by
      rw [split]
      simp
    have reached : ({} : State).after (before ++ select :: (run ++ front)) =
        (select.state.after run).after front := by simp
    rw [← reached, level, content] at line
    have margin : 0 ≤ (({} : State).after before).indentLevel :=
      (walk.grounded grounded_initial).level
    rw [← width_succ options.indentSize margin]
    exact line.headsLine (walk_split regrouped).1 options
  · rintro single noComments first back rfl item noComment noCase noElse
    -- The SELECT has counted one item, so nothing is due before it.
    obtain ⟨within, flats⟩ := goesOn noComments
    have calm : (select.state.after run).Calm :=
      ⟨within, selecting.awaits.trans (by rw [single]; rfl), selecting.noBlock⟩
    have last := inner.append.2.head.1
    obtain ⟨after, nests⟩ := StartsItem.first.nested.next selection.nested
    obtain ⟨heads, noEnd⟩ := Token.heads_of_beginsItem item last.visible nests
    have listed : Selection run ([] ++ first :: back) rest := selection
    have inline := Token.isInline_of_beginsItem item (listed.noClause_first StartsItem.first.nested)
      noCase noElse noEnd noComment
    exact ⟨run, rfl, inLine, flats, last.flat_of_calm calm heads inline⟩

/-- Two items of a selection start lines of their own. The second one is a query, whose only item stays on
the line of its SELECT. -/
theorem selection_aligned_query :
    format {} "select distinct a, (select f(b, c) from t) from u" =
      "SELECT DISTINCT\n  a,\n  (\n    SELECT f(b, c)\n    FROM t\n  )\nFROM u\n" ∧
    ∃ select run front opening inner call rest,
      course .trailing (fuse (tokenize "select distinct a, (select f(b, c) from t) from u")) =
        select :: (run ++ front ++ opening :: inner :: call :: rest) ∧
      select.token.isKeyword "SELECT" = true ∧ inner.token.isKeyword "SELECT" = true ∧
      HeadsLine {} [] select 0 ∧ HeadsLine {} (select :: (run ++ front)) opening 2 ∧
      SameLine (select :: (run ++ front ++ [opening])) inner
        (select :: (run ++ front ++ [opening, inner])) call := by
  let entries := course .trailing (fuse (tokenize "select distinct a, (select f(b, c) from t) from u"))
  let select := entries[0]!
  let run := [entries[1]!]
  let front := [entries[2]!] ++ [entries[3]!]
  let opening := entries[4]!
  let inner := entries[5]!
  let call := entries[6]!
  let arguments := (entries.drop 7).take 5
  let rest := entries.drop 7
  let query := (entries.drop 5).take 10
  let above := select :: (run ++ front ++ [opening])
  have facts : format {} "select distinct a, (select f(b, c) from t) from u" =
        "SELECT DISTINCT\n  a,\n  (\n    SELECT f(b, c)\n    FROM t\n  )\nFROM u\n" ∧
      (entries = [] ++ select :: (run ++ ((front ++ opening :: query) ++ entries.drop 15)) ∧
      select.token.isKeyword "SELECT" = true ∧
      Selection run (front ++ opening :: query) (entries.drop 15) ∧
      1 < itemCount ((front ++ opening :: query).map Entry.token) ∧
      WellNested ([entries[2]!].map Entry.token) ∧ entries[3]!.token.kind = .comma ∧
      opening.token.beginsItem = true ∧ opening.token.isKeyword "COMMENT" = false) ∧
      (entries = above ++ inner :: ([] ++ ((call :: arguments) ++ entries.drop 12)) ∧
      inner.token.isKeyword "SELECT" = true ∧ (({} : State).after above).top = some .subquery ∧
      Selection [] (call :: arguments) (entries.drop 12) ∧
      itemCount ((call :: arguments).map Entry.token) = 1 ∧ call.token.beginsItem = true ∧
      call.token.isKeyword "COMMENT" = false ∧ call.token.isKeyword "CASE" = false ∧
      call.token.isKeyword "ELSE" = false) ∧
      entries = select :: (run ++ front ++ opening :: inner :: call :: rest) ∧
      (lastLine (textBefore {} [] select)).length = 0 := by
    decide +kernel
  obtain ⟨text, outer, nested, whole, spaces⟩ := facts
  obtain ⟨split, word, selection, several, single, comma, item, noComment⟩ := outer
  obtain ⟨cut, innerWord, subquery, inside, one, begins, free, noCase, noElse⟩ := nested
  obtain ⟨width, heads, spread, -⟩ :=
    selection_aligned {} rfl _ split word (Or.inl rfl) selection
  have line := spread several front opening query rfl (StartsItem.next single comma) item noComment
  obtain ⟨-, -, -, stays⟩ := selection_aligned {} rfl _ cut innerWord (Or.inr subquery) inside
  have same := stays one (fun _ member => absurd member List.not_mem_nil) call arguments rfl begins free
    noCase noElse
  have margin : width = 0 := by
    rw [heads, List.length_replicate] at spaces
    exact spaces
  subst margin
  exact ⟨text, select, run, front, opening, inner, call, rest, whole, word, innerWord, heads, line, same⟩

end SqlLayout
