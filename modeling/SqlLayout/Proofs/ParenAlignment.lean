import SqlLayout.Proofs.CaseAlignment

/-!
# Parentheses with lines of their own

The parenthesis that closes a block with lines of its own starts a line. It is indented like the
opening one where that starts its line, and otherwise to the level of clauses that holds where the
opening one stands. That level is settled by the token that starts the line (`Walk.line`), and the
line itself may be indented beyond it (`State.overhang`): the two parentheses are on lines of the same
indentation exactly where it is not (`closing_paren_placed`).
-/

namespace SqlLayout

/-! ## How a token stands to its line -/

namespace State

/-- The levels that a line which a keyword starts is indented beyond the clauses behind it. -/
def keywordOverhang (state : State) (token : Token) : Int :=
  if token.value = "CASE" then 0
  else if (token.value = "WHEN" ∨ token.value = "ELSE") ∧ state.caseLevels ≠ [] then 1
  else if token.value = "END" ∧ state.caseLevels ≠ [] then
    state.indentLevel - state.caseLevels.headD 0
  else if Keyword.clauses.contains token.value || (token.value == "COMMENT" && state.inFunction) then
    if token.value = "ON" then 1 else 0
  else state.contentLevel

/-- The levels that a line which a token starts is indented beyond the clauses behind it. A line that
begins with a dot or an inline comma is not indented at all. -/
def overhang (state : State) (token : Token) : Int :=
  match token.kind with
  | .rparen =>
    match state.constructs with
    | [] => 0
    | construct :: _ =>
      if construct.kind.isMultiline then construct.columnLevel - construct.outerLevel else 0
  | .comma => if state.top == some .grouping && !state.afterBlock then -state.indentLevel else 0
  | .dot => -state.indentLevel
  | .keyword => (state.note token).keywordOverhang token
  | _ => state.contentLevel

/-- How a token is laid out on lines, if a line that it starts is indented the given levels beyond the
clauses behind it. -/
inductive Lines (state : State) (token : Token) (overhang : Int) (result : Step) : Prop
  /-- The line ends behind the token. -/
  | ends (begun : result.1.lineStart = true)
  /-- The token goes on with a line, and the level of clauses stays. -/
  | goesOn (within : state.lineStart = false) (level : result.1.indentLevel = state.indentLevel)
    (flat : Piece.newline ∉ result.2)
  /-- The token starts a line. -/
  | starts (pieces : result.2 =
      state.freshLine.2 ++ [.indent (result.1.indentLevel + overhang), .word token])
  /-- The token starts a line that is not indented. -/
  | bare (begun : state.lineStart = true) (pieces : result.2 = [.word token])
    (margin : result.1.indentLevel + overhang = 0)

/-- Where a line starts and what is written decides on the lines. -/
theorem Lines.congr {state told : State} {token : Token} {overhang : Int} {result other : Step}
    (lines : told.Lines token overhang result) (same : told.lineStart = state.lineStart)
    (level : told.indentLevel = state.indentLevel) (next : other.1.lineStart = result.1.lineStart)
    (nextLevel : other.1.indentLevel = result.1.indentLevel) (pieces : other.2 = result.2) :
    state.Lines token overhang other := by
  cases lines with
  | ends begun => exact Lines.ends (next.trans begun)
  | goesOn within stays flat =>
    exact Lines.goesOn (same.symm.trans within) (nextLevel.trans (stays.trans level))
      (by rwa [pieces])
  | starts shape =>
    refine Lines.starts ?_
    rw [pieces, shape, nextLevel, freshLine_eq, freshLine_eq, same]
  | bare begun shape margin =>
    exact Lines.bare (same.symm.trans begun) (pieces.trans shape) (by rwa [nextLevel])

/-- Where a line begins, the break that is due is the one that a fresh line takes. -/
theorem dueBreak_eq {state : State} {due : Bool} (begun : (state.lineStart || due) = true) :
    (if due && !state.lineStart then [.newline] else []) = state.freshLine.2 := by
  rw [freshLine_eq]
  cases line : state.lineStart with
  | true => simp
  | false =>
    rw [line, Bool.false_or] at begun
    rw [begun]
    rfl

/-- A token that takes the breaks that are due starts a line or goes on with one. -/
theorem lines_breaks {state : State} {token : Token} {overhang : Int} {result : Step} {due : Bool}
    {gap : List Piece} (level : result.1.indentLevel = state.indentLevel)
    (pieces : result.2 =
      (if due && !state.lineStart then [.newline] else []) ++ gap ++ [.word token])
    (begun : (state.lineStart || due) = true → gap = [.indent (state.indentLevel + overhang)])
    (within : (state.lineStart || due) = false → gap = [] ∨ gap = [.space]) :
    state.Lines token overhang result := by
  by_cases starts : (state.lineStart || due) = true
  · refine Lines.starts ?_
    rw [pieces, begun starts, dueBreak_eq starts, level, List.append_assoc]
    rfl
  · rw [Bool.not_eq_true] at starts
    have flat := within starts
    rw [Bool.or_eq_false_iff] at starts
    refine Lines.goesOn starts.1 level ?_
    rw [pieces, starts.2]
    rcases flat with rfl | rfl <;> simp

/-- A token that completes a name goes on with its line. -/
theorem lines_glued {state : State} (glued : state.gluesToDot = true) (token : Token)
    (overhang : Int) : state.Lines token overhang ({ state with lineStart := false }, [.word token]) := by
  simp only [gluesToDot, Bool.and_eq_true, Bool.not_eq_true'] at glued
  exact Lines.goesOn glued.2 rfl (by simp)

/-- Within a line nothing but a space stands before an ordinary token, and at the start of a line its
indentation. -/
theorem ordinary_lines (state : State) (token : Token) :
    state.Lines token state.contentLevel (state.ordinary token) := by
  cases glued : state.gluesToDot with
  | true =>
    rw [ordinary_glued glued]
    exact lines_glued glued token state.contentLevel
  | false =>
    rw [ordinary_apart glued rfl]
    refine lines_breaks (by rfl) (by rfl) (fun begun => ?_) fun within => ?_
    · exact if_pos begun
    · exact lead_inside within

/-- Verbatim text stands like an ordinary token. -/
theorem verbatim_lines (state : State) (token : Token) :
    state.Lines token state.contentLevel (state.verbatim token) := by
  cases glued : state.gluesToDot with
  | true =>
    rw [verbatim_glued glued]
    exact lines_glued glued token state.contentLevel
  | false =>
    rw [verbatim_apart glued]
    refine lines_breaks (by rfl) (by rfl) (fun begun => ?_) fun within => ?_
    · rw [if_neg (by simp [begun])]
      exact if_pos begun
    · split
      · exact Or.inl rfl
      · exact lead_inside within

/-- An opening parenthesis stands like an ordinary token, unless it has lines of its own. -/
theorem openParen_lines (state : State) (token : Token) (following : List Token) :
    state.Lines token state.contentLevel (state.openParen token following) := by
  rw [openParen_eq state token rfl rfl rfl]
  cases multiline : (state.classify following).isMultiline with
  | true => exact Lines.ends rfl
  | false =>
    rw [Bool.or_assoc]
    refine lines_breaks (by rfl) (by rfl) (fun begun => ?_) fun within => ?_
    · rw [if_pos begun, if_pos begun]
    · rw [if_neg (by simp [within])]
      exact parenGap_isGap state _

/-- A closing parenthesis starts a line if the block has lines of its own, or where a line begins. -/
theorem closeParen_lines (state : State) {token : Token} (closes : token.kind = .rparen) :
    state.Lines token (state.overhang token) (state.closeParen token) := by
  cases state.closeParen_closing token with
  | multiline innermost lines same =>
    rename_i construct outer
    have level : construct.outerLevel + (construct.columnLevel - construct.outerLevel) =
        construct.columnLevel := by omega
    rw [same, overhang, closes, innermost]
    refine Lines.starts ?_
    dsimp only
    rw [if_pos lines, level]
  | inline noLines same =>
    have flat : state.overhang token = 0 := by
      rw [overhang, closes]
      cases innermost : state.constructs with
      | nil => rfl
      | cons construct outer => exact if_neg (by simp [noLines construct outer innermost])
    have pieces : (state.closeParen token).2 =
        (if false && !state.lineStart then [.newline] else []) ++
          (if state.lineStart then [.indent state.indentLevel] else []) ++ [.word token] := by
      rw [same]
      rfl
    rw [flat]
    refine lines_breaks (by rw [same]) pieces (fun begun => ?_) fun within => ?_
    · rw [Bool.or_false] at begun
      rw [if_pos begun, Int.add_zero]
    · rw [Bool.or_false] at within
      exact Or.inl (if_neg (by simp [within]))

/-- A comma stays inline, ends a line or starts one at the level of clauses. -/
theorem comma_lines (commas : CommaPosition) (state : State) {token : Token}
    (mark : token.kind = .comma) :
    state.Lines token (state.overhang token) (comma commas state token) := by
  rw [overhang, mark]
  dsimp only
  cases state.comma_separates commas token with
  | inline inside same =>
    rw [same, if_pos inside]
    cases start : state.lineStart with
    | true => exact Lines.bare start rfl (by dsimp only; omega)
    | false => exact Lines.goesOn start rfl (by simp)
  | trailing outside position same =>
    rw [same]
    exact Lines.ends rfl
  | leading outside position same =>
    rw [same, if_neg outside]
    refine Lines.starts ?_
    rw [Int.add_zero]

/-- A keyword at the start of a line starts it. -/
theorem keywordLine_lines (state : State) (token : Token) (extra : Int) :
    state.Lines token extra (state.keywordLine token extra) := by
  rw [keywordLine_eq]
  exact Lines.starts rfl

/-- A keyword starts a line or stands like an ordinary token. -/
theorem keyword_lines (state : State) (token : Token) (following : List Token) :
    state.Lines token (state.keywordOverhang token) (state.keyword token following) := by
  unfold keywordOverhang
  by_cases opens : token.value = "CASE"
  · rw [if_pos opens, keyword_case state opens, openCase_eq]
    refine Lines.starts ?_
    rw [Int.add_zero]
  rw [if_neg opens]
  by_cases branch : (token.value = "WHEN" ∨ token.value = "ELSE") ∧ state.caseLevels ≠ []
  · rw [if_pos branch, keyword_branch state branch.1 branch.2]
    exact keywordLine_lines state token 1
  rw [if_neg branch]
  by_cases closes : token.value = "END" ∧ state.caseLevels ≠ []
  · obtain ⟨level, outer, innermost⟩ := List.exists_cons_of_ne_nil closes.2
    have beyond : level + (state.indentLevel - level) = state.indentLevel := by omega
    rw [if_pos closes, keyword_end state closes.1 innermost, closeCase_eq, innermost]
    refine Lines.starts ?_
    rw [List.headD_cons, beyond]
  rw [if_neg closes, keyword_other state opens branch closes]
  split
  · rw [clause_eq]
    exact Lines.starts rfl
  · exact ordinary_lines state token

/-- A step lays its token out on lines. -/
theorem step_lines (commas : CommaPosition) (state : State) (token : Token)
    (following : List Token) :
    state.Lines token (state.overhang token) (state.step commas token following) := by
  have placed : state.Lines token (state.overhang token) (state.place commas token following) := by
    cases state.place_handled commas token following with
    | comment kind same =>
      rw [same, comment_eq]
      exact Lines.ends rfl
    | semicolon kind same =>
      rw [same]
      exact Lines.ends rfl
    | openParen kind same =>
      rw [same, overhang, kind]
      exact openParen_lines state token following
    | closeParen kind same =>
      rw [same]
      exact closeParen_lines state kind
    | comma kind same =>
      rw [same]
      exact comma_lines commas state kind
    | dot kind same =>
      rw [same, overhang, kind]
      cases start : state.lineStart with
      | true => exact Lines.bare start rfl (Int.add_right_neg _)
      | false => exact Lines.goesOn start rfl (by simp [dot])
    | keyword kind same =>
      have line := (state.note_same token).1
      have level := (state.note_levels token).1
      rw [same, overhang, kind]
      exact (keyword_lines (state.note token) token following).congr line level rfl rfl rfl
    | verbatim kind same =>
      rw [same, overhang, kind]
      exact verbatim_lines state token
    | ordinary kind same =>
      have item : state.overhang token = state.contentLevel := by
        unfold overhang
        split <;> first | (rename_i special; rw [special] at kind; cases kind) | rfl
      rw [same, item]
      exact ordinary_lines state token
  exact placed.congr rfl rfl rfl rfl rfl

end State

/-! ## The token that starts a line -/

namespace Entry

variable {commas : CommaPosition} {state : State} {entry : Entry}

/-- Whether the token of an entry starts a line at a level; at the margin the line may have begun
before, with nothing on it. -/
def Begins (state : State) (entry : Entry) (level : Int) : Prop :=
  entry.Breaks state level ∨ (state.lineStart = true ∧ entry.gap = [] ∧ level = 0)

/-- The token that starts a line heads it. -/
theorem Begins.headsLine {past : List Entry} {level : Int}
    (begins : entry.Begins (({} : State).after past) level) (walk : Walk commas {} past)
    (options : Options) : HeadsLine options past entry (options.indentSize * level).toNat := by
  rcases begins with breaks | ⟨begun, bare, margin⟩
  · exact breaks.headsLine walk options
  · have line := (walk.consistent options).line begun
    rw [HeadsLine, textBefore, bare, List.append_nil, lastLine_eq_nil line, margin, Int.mul_zero]
    rfl

/-- No line starts before the margin. -/
theorem Leaves.begins_nonneg (leaves : entry.Leaves commas state) (grounded : state.frame.Grounded)
    {level : Int} (begins : entry.Begins state level) : 0 ≤ level := by
  rcases begins with breaks | ⟨-, -, margin⟩
  · obtain ⟨following, step⟩ := leaves.step
    obtain ⟨before, behind, leads, pieces, -⟩ :=
      State.step_spaced grounded commas entry.token following
    have written : Piece.indent level ∈ before := by
      have member : Piece.indent level ∈ entry.pieces := by
        apply (List.takeWhile_sublist Piece.isGap).subset
        rw [← gap, breaks]
        exact List.mem_append_right _ List.mem_cons_self
      rw [step] at pieces
      rw [show entry.pieces = _ from pieces] at member
      simpa [List.mem_replicate] using member
    cases leads <;> simp_all
  · exact Int.le_of_eq margin.symm

/-- A token that leaves something on its line goes on with the line or starts one. -/
theorem Leaves.lines (leaves : entry.Leaves commas state) (within : entry.state.lineStart = false) :
    (state.lineStart = false ∧ entry.state.indentLevel = state.indentLevel ∧
        Piece.newline ∉ entry.pieces) ∨
      entry.Begins state (entry.state.indentLevel + state.overhang entry.token) := by
  obtain ⟨following, step⟩ := leaves.step
  have lines := state.step_lines commas entry.token following
  rw [step] at lines
  cases lines with
  | ends begun =>
    rw [show entry.state.lineStart = true from begun] at within
    cases within
  | goesOn line level flat => exact Or.inl ⟨line, level, flat⟩
  | starts pieces => exact Or.inr (Or.inl (breaks_of_pieces rfl pieces))
  | bare begun pieces margin =>
    have none : entry.gap = [] := by
      rw [gap, show entry.pieces = _ from pieces]
      rfl
    exact Or.inr (Or.inr ⟨begun, none, margin⟩)

end Entry

/-- Whether an entry behind others stands on the line that an earlier one has started. -/
def SameLine (above : List Entry) (first : Entry) (before : List Entry) (entry : Entry) : Prop :=
  ∃ line, before = above ++ first :: line ∧ first.state.lineStart = false ∧
    (∀ other ∈ line, Piece.newline ∉ other.pieces) ∧ Piece.newline ∉ entry.gap

/-- Where something stands on a line, the token that starts the line has settled the level of
clauses. -/
theorem Walk.line {commas : CommaPosition} {entries : List Entry} (walk : Walk commas {} entries)
    (within : (({} : State).after entries).lineStart = false) :
    ∃ above first line, entries = above ++ first :: line ∧ first.state.lineStart = false ∧
      (∀ other ∈ line, Piece.newline ∉ other.pieces) ∧
      first.Begins (({} : State).after above) ((({} : State).after entries).indentLevel +
        (({} : State).after above).overhang first.token) := by
  induction entries using List.reverseRecOn with
  | nil => cases within
  | append_singleton entries entry ih =>
    obtain ⟨before, last⟩ := walk.append
    have leaves := last.head.1
    rw [State.after_append, State.after_cons, State.after_nil] at within ⊢
    rcases leaves.lines within with ⟨inLine, level, flat⟩ | begins
    · obtain ⟨above, first, line, split, opened, flats, begins⟩ := ih before inLine
      refine ⟨above, first, line ++ [entry], by rw [split]; simp, opened, ?_, by rwa [level]⟩
      intro other member
      rcases List.mem_append.1 member with earlier | here
      · exact flats other earlier
      · rwa [List.mem_singleton.1 here]
    · exact ⟨entries, entry, [], rfl, within, by simp, begins⟩

/-! ## Both parentheses of a block -/

namespace Entry

variable {commas : CommaPosition} {state : State} {entry : Entry}

/-- The parenthesis that is opened is the innermost one. -/
theorem top_openParen {following : List Token}
    (step : state.step commas entry.token following = (entry.state, entry.pieces))
    (opens : entry.token.kind = .lparen) : entry.state.top = some (state.classify following) := by
  obtain ⟨-, next⟩ := placed step
  rw [State.place, opens] at next
  rw [next, State.openParen_eq state entry.token rfl rfl rfl]
  rfl

/-- Where no line is begun and no break is due, an opening parenthesis goes on with the line. -/
theorem Leaves.flat_openParen (leaves : entry.Leaves commas state) (opens : entry.token.kind = .lparen)
    (within : (state.lineStart || (state.awaitsFirstItem || state.afterBlock)) = false) :
    Piece.newline ∉ entry.gap := by
  obtain ⟨following, pieces, -⟩ := leaves.place
  rw [State.place, opens] at pieces
  dsimp only at pieces
  rw [State.openParen_eq state entry.token rfl rfl rfl, Bool.or_assoc, within] at pieces
  rw [Bool.or_eq_false_iff] at within
  have spaces := state.parenGap_isGap (state.classify following)
  have blank : ∀ piece ∈ state.parenGap (state.classify following), piece.isGap = true := by
    rcases spaces with none | one
    · simp [none]
    · simp [one, Piece.isGap]
  have flat : entry.gap = state.parenGap (state.classify following) := by
    rw [gap, pieces, within.2]
    exact State.takeWhile_isGap blank entry.token _
  rw [flat]
  rcases spaces with none | one
  · simp [none]
  · simp [one]

/-- The parenthesis that opens a block remembers the level of its line, if it starts the line, and
otherwise the level of clauses. -/
theorem Leaves.openParen (leaves : entry.Leaves commas state) (opens : entry.token.kind = .lparen)
    (multiline : entry.state.top ≠ some .grouping) :
    ∃ construct outer, entry.state.constructs = construct :: outer ∧
      construct.kind.isMultiline = true ∧
      (entry.Begins state construct.columnLevel ∨
        (state.lineStart = false ∧ construct.columnLevel = state.indentLevel ∧
          Piece.newline ∉ entry.gap)) := by
  obtain ⟨following, pieces, next⟩ := leaves.place
  have placed : state.place commas entry.token following =
      state.openParen entry.token following := by
    rw [State.place, opens]
  rw [placed, State.openParen_eq state entry.token rfl rfl rfl] at pieces next
  have held := congrArg State.constructs next
  have block : (state.classify following).isMultiline = true := by
    rw [State.top, held] at multiline
    cases kind : state.classify following with
    | grouping => exact absurd (by simp [kind]) multiline
    | _ => rfl
  refine ⟨_, _, held, block, ?_⟩
  dsimp only at pieces ⊢
  rw [Bool.or_assoc] at pieces ⊢
  by_cases begun : (state.lineStart || (state.awaitsFirstItem || state.afterBlock)) = true
  · rw [if_pos begun, if_pos begun, State.dueBreak_eq begun, List.append_assoc] at pieces
    rw [if_pos begun]
    exact Or.inl (Or.inl (breaks_of_pieces rfl pieces))
  · rw [if_neg begun]
    rw [Bool.not_eq_true] at begun
    have flat := leaves.flat_openParen opens begun
    rw [Bool.or_eq_false_iff] at begun
    exact Or.inr ⟨begun.1, Int.add_zero _, flat⟩

/-- The parenthesis that closes a block starts a line at the level that the block remembers. -/
theorem Leaves.closeParen (leaves : entry.Leaves commas state) (closes : entry.token.kind = .rparen)
    {construct : Construct} {outer : List Construct}
    (innermost : state.constructs = construct :: outer)
    (multiline : construct.kind.isMultiline = true) :
    entry.Breaks state construct.columnLevel := by
  obtain ⟨following, pieces, -⟩ := leaves.place
  rw [State.place, closes] at pieces
  dsimp only at pieces
  rw [State.closeParen_multiline innermost multiline] at pieces
  exact breaks_of_pieces rfl pieces

end Entry

/-- Where the parentheses of a block are placed. Wherever a parenthesis with lines of its own and
well-nested contents stands, the closing one starts a line. It is indented like the opening one, if
that starts a line too. Otherwise the line of the opening one is started by an earlier token, and
indented beyond the closing one by the overhang of that token; the two lines have the same
indentation exactly if there is none. -/
theorem closing_paren_placed (options : Options) (positive : 1 ≤ options.indentSize)
    (tokens : List Token) {before inside after : List Entry} {opening closing : Entry}
    (split : course options.commaPosition tokens = before ++ opening :: (inside ++ closing :: after))
    (opens : opening.token.kind = .lparen) (closes : closing.token.kind = .rparen)
    (nested : WellNested (inside.map Entry.token))
    (multiline : opening.state.top ≠ some .grouping) :
    ∃ width, HeadsLine options (before ++ opening :: inside) closing width ∧
      (HeadsLine options before opening width ∨
        ∃ above first indent, SameLine above first before opening ∧
          HeadsLine options above first indent ∧
          (indent : Int) = width +
            options.indentSize * (({} : State).after above).overhang first.token ∧
          (indent = width ↔ (({} : State).after above).overhang first.token = 0)) := by
  obtain ⟨walk, leaves, inner⟩ := walk_split split
  obtain ⟨construct, outer, innermost, block, placed⟩ := leaves.openParen opens multiline
  have regrouped : course options.commaPosition tokens =
      (before ++ opening :: inside) ++ closing :: after := by
    rw [split, List.append_assoc, List.cons_append]
  obtain ⟨reached, last, -⟩ := walk_split regrouped
  -- The contents leave the block open, so the closing parenthesis finds it as it was opened.
  have held : (({} : State).after (before ++ opening :: inside)).constructs = construct :: outer := by
    have frame := inner.append.1.frame_of_nested nested
    rw [State.after_append]
    exact (congrArg Frame.constructs frame).trans innermost
  have closed := last.closeParen closes held block
  refine ⟨_, closed.headsLine reached options, ?_⟩
  rcases placed with begins | ⟨within, level, flat⟩
  · exact Or.inl (begins.headsLine walk options)
  · obtain ⟨above, first, line, cut, open', flats, begins⟩ := walk.line within
    rw [cut] at walk
    obtain ⟨upper, rest⟩ := walk.append
    have margin : 0 ≤ (({} : State).after before).indentLevel := by
      rw [cut]
      exact (walk.grounded grounded_initial).level
    have indented := rest.head.1.begins_nonneg (upper.grounded grounded_initial) begins
    obtain ⟨sum, same⟩ := width_add positive margin indented
    rw [level]
    exact Or.inr ⟨above, first, _, ⟨line, cut, open', flats, flat⟩, begins.headsLine upper options,
      sum, same⟩

/-- A subquery in an item of a selection is closed at the margin, though the line of the item is
indented. -/
theorem closing_paren_placed_query :
    format {} "select a, b in (select 1)" = "SELECT\n  a,\n  b IN (\n  SELECT 1\n)\n" ∧
    ∃ before opening inside closing,
      course .trailing (fuse (tokenize "select a, b in (select 1)")) =
        before ++ opening :: (inside ++ [closing]) ∧
      opening.token.kind = .lparen ∧ closing.token.kind = .rparen ∧
      WellNested (inside.map Entry.token) ∧ opening.state.top = some .subquery ∧
      HeadsLine {} (before ++ opening :: inside) closing 0 ∧
      ∃ above first indent, SameLine above first before opening ∧ HeadsLine {} above first indent ∧
        (indent = 0 ↔ (({} : State).after above).overhang first.token = 0) := by
  let entries := course .trailing (fuse (tokenize "select a, b in (select 1)"))
  let before := entries.take 5
  let opening := entries[5]!
  let inside := (entries.drop 6).take 2
  let closing := entries[8]!
  have facts : format {} "select a, b in (select 1)" =
        "SELECT\n  a,\n  b IN (\n  SELECT 1\n)\n" ∧
      entries = before ++ opening :: (inside ++ [closing]) ∧ opening.token.kind = .lparen ∧
      closing.token.kind = .rparen ∧ WellNested (inside.map Entry.token) ∧
      opening.state.top = some .subquery ∧
      (lastLine (textBefore {} (before ++ opening :: inside) closing)).length = 0 ∧
      lastLine (textBefore {} before opening) ≠ [] := by
    decide +kernel
  obtain ⟨text, split, opens, closes, nested, subquery, spaces, inLine⟩ := facts
  obtain ⟨width, heads, line⟩ := closing_paren_placed {} (by decide) _ split opens closes nested
    (by rw [subquery]; decide)
  have margin : width = 0 := by
    rw [heads, List.length_replicate] at spaces
    exact spaces
  subst margin
  obtain ⟨above, first, indent, same, starts, -, iff⟩ := line.resolve_left inLine
  exact ⟨text, before, opening, inside, closing, split, opens, closes, nested, subquery, heads,
    above, first, indent, same, starts, iff⟩

end SqlLayout
