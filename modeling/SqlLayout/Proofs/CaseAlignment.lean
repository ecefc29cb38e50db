import SqlLayout.Proofs.Lines

/-!
# CASE expressions are aligned

A CASE starts a line at the level that it keeps for its contents, and its WHEN, ELSE and END start
lines relative to the level that holds where they stand. The contents leave the level as it was, so
the END is written below its CASE and every WHEN and ELSE one level beyond it (`case_aligned`).
-/

namespace SqlLayout

open Text

/-! ## The keywords of a CASE -/

namespace Entry

variable {commas : CommaPosition} {state : State} {entry : Entry}

/-- A keyword is laid out once the state has taken note of it. -/
theorem Leaves.keyword (leaves : entry.Leaves commas state) (word : entry.token.kind = .keyword) :
    ∃ following, entry.pieces = ((state.note entry.token).keyword entry.token following).2 ∧
      entry.state.frame = ((state.note entry.token).keyword entry.token following).1.frame := by
  obtain ⟨following, pieces, next⟩ := leaves.place
  have placed : state.place commas entry.token following =
      (state.note entry.token).keyword entry.token following := by
    rw [State.place, word]
  rw [placed] at pieces next
  have frame := congrArg State.frame next
  exact ⟨following, pieces, frame⟩

/-- A CASE starts a line at the level that holds behind it. -/
theorem Leaves.breaks_case (leaves : entry.Leaves commas state)
    (opens : entry.token.isKeyword "CASE" = true) :
    entry.Breaks state entry.state.indentLevel ∧ entry.state.caseLevels ≠ [] := by
  obtain ⟨following, pieces, frame⟩ := leaves.keyword (Token.kind_of_isKeyword opens)
  rw [State.keyword_case _ (Token.value_of_isKeyword opens), State.openCase_eq] at pieces frame
  have level := congrArg Frame.level frame
  have levels := congrArg Frame.caseLevels frame
  dsimp only [State.frame] at level levels
  rw [level, levels]
  exact ⟨breaks_of_pieces (state.note_same entry.token).1 pieces, List.cons_ne_nil _ _⟩

/-- A WHEN or an ELSE of a CASE starts a line one level beyond the level that holds before it. -/
theorem Leaves.breaks_branch (leaves : entry.Leaves commas state)
    (branch : entry.token.isKeyword "WHEN" = true ∨ entry.token.isKeyword "ELSE" = true)
    (within : state.caseLevels ≠ []) : entry.Breaks state (state.indentLevel + 1) := by
  have word : entry.token.kind = .keyword :=
    branch.elim Token.kind_of_isKeyword Token.kind_of_isKeyword
  have value := branch.imp Token.value_of_isKeyword Token.value_of_isKeyword
  obtain ⟨level, levels⟩ := state.note_levels entry.token
  obtain ⟨following, pieces, -⟩ := leaves.keyword word
  rw [State.keyword_branch _ value (by rwa [levels]), State.keywordLine_eq, level] at pieces
  exact breaks_of_pieces (state.note_same entry.token).1 pieces

/-- An END of a CASE starts a line at the level that holds before it. -/
theorem Leaves.breaks_end (leaves : entry.Leaves commas state)
    (closes : entry.token.isKeyword "END" = true) (within : state.caseLevels ≠ []) :
    entry.Breaks state state.indentLevel := by
  obtain ⟨level, levels⟩ := state.note_levels entry.token
  obtain ⟨following, pieces, -⟩ := leaves.keyword (Token.kind_of_isKeyword closes)
  obtain ⟨inner, outer, innermost⟩ := List.exists_cons_of_ne_nil within
  rw [State.keyword_end _ (Token.value_of_isKeyword closes) (levels.trans innermost),
    State.closeCase_eq, level] at pieces
  exact breaks_of_pieces (state.note_same entry.token).1 pieces

end Entry

/-! ## Whole expressions -/

/-- Whether a CASE expression, whose entries stand behind others, is aligned, when it is known which
tokens stand at the start of a line behind how many spaces: the END is below the CASE, and every WHEN
and ELSE outside of deeper brackets is a step beyond them. -/
structure CaseAligned (heads : List Entry → Entry → Nat → Prop) (before : List Entry)
    (opening : Entry) (inside : List Entry) (closing : Entry) (width step : Nat) : Prop where
  /-- The CASE starts a line. -/
  opens : heads before opening width
  /-- The END starts a line below the CASE. -/
  closes : heads (before ++ opening :: inside) closing width
  /-- A WHEN or an ELSE of the CASE starts a line one step beyond it. -/
  branches : ∀ front branch back, inside = front ++ branch :: back →
    WellNested (front.map Entry.token) →
    branch.token.isKeyword "WHEN" = true ∨ branch.token.isKeyword "ELSE" = true →
    heads (before ++ opening :: front) branch (width + step)

/-- What is written for a CASE expression with well-nested contents is aligned. -/
theorem caseAligned_headsLine {options : Options} {tokens : List Token}
    {before inside after : List Entry} {opening closing : Entry}
    (split : course options.commaPosition tokens = before ++ opening :: (inside ++ closing :: after))
    (opens : opening.token.isKeyword "CASE" = true) (closes : closing.token.isKeyword "END" = true)
    (nested : WellNested (inside.map Entry.token)) :
    CaseAligned (HeadsLine options) before opening inside closing
      (options.indentSize * opening.state.indentLevel).toNat options.indentSize.toNat := by
  obtain ⟨outer, leaves, inner⟩ := walk_split split
  obtain ⟨breaks, within⟩ := leaves.breaks_case opens
  have margin : 0 ≤ opening.state.indentLevel :=
    (leaves.grounded (outer.grounded grounded_initial)).level
  -- Behind well-nested entries the level and the open CASE are those behind the CASE.
  have restored {front : List Entry} (walk : Walk options.commaPosition opening.state front)
      (neutral : WellNested (front.map Entry.token)) :
      (({} : State).after (before ++ opening :: front)).indentLevel = opening.state.indentLevel ∧
        (({} : State).after (before ++ opening :: front)).caseLevels ≠ [] := by
    have frame := walk.frame_of_nested neutral
    have levels : (opening.state.after front).caseLevels = opening.state.caseLevels :=
      congrArg Frame.caseLevels frame
    rw [State.after_append, State.after_cons, levels]
    exact ⟨congrArg Frame.level frame, within⟩
  refine ⟨breaks.headsLine outer options, ?_, fun front branch back cut neutral marked => ?_⟩
  · have regrouped : course options.commaPosition tokens =
        (before ++ opening :: inside) ++ closing :: after := by
      rw [split, List.append_assoc, List.cons_append]
    obtain ⟨reached, last, -⟩ := walk_split regrouped
    obtain ⟨level, entered⟩ := restored inner.append.1 nested
    have line := last.breaks_end closes entered
    rw [level] at line
    exact line.headsLine reached options
  · have regrouped : course options.commaPosition tokens =
        (before ++ opening :: front) ++ branch :: (back ++ closing :: after) := by
      rw [split, cut]
      simp only [List.append_assoc, List.cons_append]
    obtain ⟨reached, next, -⟩ := walk_split regrouped
    rw [cut, List.append_assoc] at inner
    obtain ⟨level, entered⟩ := restored inner.append.1 neutral
    have line := next.breaks_branch marked entered
    rw [level] at line
    rw [← width_succ _ margin]
    exact line.headsLine reached options

/-- A CASE expression that is aligned as it is written is aligned in the formatted text, unless the
indentation of the CASE is trimmed. -/
theorem CaseAligned.returnsLine {options : Options} {tokens : List Token}
    {before inside after : List Entry} {opening closing : Entry}
    (split : course options.commaPosition tokens = before ++ opening :: (inside ++ closing :: after))
    {width step : Nat}
    (aligned : CaseAligned (HeadsLine options) before opening inside closing width step)
    (opens : opening.token.kind = .keyword) (closes : closing.token.kind = .keyword)
    (solid : ∀ entry ∈ opening :: (inside ++ [closing]), entry.token.kind = .keyword →
      Solid (entry.token.shown options.keywordCase).toList)
    (kept : width = 0 ∨ ¬ IsBlankText (textBefore options before opening)) :
    CaseAligned (ReturnsLine options tokens) before opening inside closing width step := by
  have begins := solid opening List.mem_cons_self opens
  -- The CASE itself stands before everything behind it, so no other indentation is trimmed.
  have ink (front : List Entry) (next : Entry) :
      ¬ IsBlankText (textBefore options (before ++ opening :: front) next) :=
    not_isBlankText_textBefore (walk_split split).2.1 begins before front next
  refine ⟨aligned.opens.returnsLine split begins kept, ?_, ?_⟩
  · have ends := solid closing (by simp) closes
    have reached : course options.commaPosition tokens =
        (before ++ opening :: inside) ++ closing :: after := by
      rw [split, List.append_assoc, List.cons_append]
    exact aligned.closes.returnsLine reached ends (Or.inr (ink inside closing))
  · intro front branch back cut neutral marked
    have word : branch.token.kind = .keyword :=
      marked.elim Token.kind_of_isKeyword Token.kind_of_isKeyword
    have shown := solid branch (by simp [cut]) word
    have reached : course options.commaPosition tokens =
        (before ++ opening :: front) ++ branch :: (back ++ closing :: after) := by
      rw [split, cut]
      simp only [List.append_assoc, List.cons_append]
    exact (aligned.branches front branch back cut neutral marked).returnsLine reached shown
      (Or.inr (ink front branch))

/-- CASE expressions are aligned. Whatever the options and wherever a CASE with its END and
well-nested contents stands, they start lines at the same indentation, and every WHEN and ELSE of the
CASE starts a line one width beyond it. The formatted text has these lines too, if its keywords are
solid, as those of a source are, unless the indentation of the CASE is trimmed because nothing but
blanks stands before it. -/
theorem case_aligned (options : Options) (tokens : List Token) {before inside after : List Entry}
    {opening closing : Entry}
    (split : course options.commaPosition tokens = before ++ opening :: (inside ++ closing :: after))
    (opens : opening.token.isKeyword "CASE" = true) (closes : closing.token.isKeyword "END" = true)
    (nested : WellNested (inside.map Entry.token)) :
    ∃ width, CaseAligned (HeadsLine options) before opening inside closing width
        options.indentSize.toNat ∧
      ((∀ entry ∈ opening :: (inside ++ [closing]), entry.token.kind = .keyword →
          Solid (entry.token.shown options.keywordCase).toList) →
        width = 0 ∨ ¬ IsBlankText (textBefore options before opening) →
        CaseAligned (ReturnsLine options tokens) before opening inside closing width
          options.indentSize.toNat) := by
  have aligned := caseAligned_headsLine split opens closes nested
  exact ⟨_, aligned, fun solid kept => aligned.returnsLine split (Token.kind_of_isKeyword opens)
    (Token.kind_of_isKeyword closes) solid kept⟩

/-- A CASE that holds another one in a subquery is aligned inside a selection. -/
theorem case_aligned_query :
    ∃ before opening inside closing,
      course .leading (fuse (tokenize "select x, case when (select case b when 1 end) else z end")) =
        before ++ opening :: (inside ++ [closing]) ∧ inside.length = 11 ∧
      CaseAligned (ReturnsLine ⟨3, .lower, .leading⟩
          (fuse (tokenize "select x, case when (select case b when 1 end) else z end")))
        before opening inside closing 3 3 := by
  let entries := course .leading
    (fuse (tokenize "select x, case when (select case b when 1 end) else z end"))
  let before := entries.take 3
  let opening := entries[3]!
  let inside := (entries.drop 4).take 11
  let closing := entries[15]!
  have facts : entries = before ++ opening :: (inside ++ [closing]) ∧ inside.length = 11 ∧
      opening.token.isKeyword "CASE" = true ∧ closing.token.isKeyword "END" = true ∧
      WellNested (inside.map Entry.token) ∧
      (lastLine (textBefore ⟨3, .lower, .leading⟩ before opening)).length = 3 ∧
      inked (textBefore ⟨3, .lower, .leading⟩ before opening) ≠ [] := by
    decide +kernel
  obtain ⟨split, count, opens, closes, nested, spaces, ink⟩ := facts
  obtain ⟨width, written, returned⟩ :=
    case_aligned ⟨3, .lower, .leading⟩ _ split opens closes nested
  have three : width = 3 := by
    rw [written.opens, List.length_replicate] at spaces
    exact spaces
  subst three
  have notBlank := mt inked_eq_nil ink
  refine ⟨before, opening, inside, closing, split, count, returned ?_ (Or.inr notBlank)⟩
  intro entry member word
  have listed : entry ∈ entries := by
    rw [split]
    exact List.mem_append_right before member
  exact solid_of_mem_fuse (mem_of_mem_courseFrom listed) word .lower

/-- The indentation of a CASE behind a form feed is trimmed, but not that of its END: the formatted
text is not aligned. -/
theorem case_behind_blanks_unaligned :
    ∃ before opening inside closing,
      course .trailing (fuse (tokenize "\x0c case when a then b end")) =
        before ++ opening :: (inside ++ [closing]) ∧
      opening.token.isKeyword "CASE" = true ∧ closing.token.isKeyword "END" = true ∧
      WellNested (inside.map Entry.token) ∧
      format {} "\x0c case when a then b end" = "CASE\n    WHEN a THEN b\n  END\n" ∧
      ¬ ∃ width, CaseAligned (ReturnsLine {} (fuse (tokenize "\x0c case when a then b end")))
        before opening inside closing width 2 := by
  let entries := course .trailing (fuse (tokenize "\x0c case when a then b end"))
  let before := entries.take 1
  let opening := entries[1]!
  let inside := (entries.drop 2).take 4
  let closing := entries[6]!
  have facts : entries = before ++ opening :: (inside ++ [closing]) ∧
      opening.token.isKeyword "CASE" = true ∧ closing.token.isKeyword "END" = true ∧
      WellNested (inside.map Entry.token) ∧
      format {} "\x0c case when a then b end" = "CASE\n    WHEN a THEN b\n  END\n" ∧
      (lastLine (returnedBefore {} before opening)).length ≠
        (lastLine (returnedBefore {} (before ++ opening :: inside) closing)).length := by
    decide +kernel
  obtain ⟨split, opens, closes, nested, text, apart⟩ := facts
  refine ⟨before, opening, inside, closing, split, opens, closes, nested, text, ?_⟩
  rintro ⟨width, aligned⟩
  apply apart
  rw [aligned.opens.line, aligned.closes.line]

end SqlLayout
