import SqlLayout.Proofs.Items

/-!
# Inline parentheses

An inline parenthesis takes every break that is due before it, so nothing is due behind it
(`State.Calm`). A token that breaks no line by itself (`Token.isInline`) then goes on with the line and
leaves nothing due either, whether it stands in the parenthesis or in inline ones nested in it
(`Entry.Leaves.inlined`). Hence no line is broken up to the parenthesis that closes the outermost one,
however deep they are nested and wherever commas are put (`inline_paren_unbroken`).
-/

namespace SqlLayout

/-- Whether a token breaks no line by itself: it is no comment, starts no clause, belongs to no CASE,
and is no COMMENT, which starts a line where a function is defined. -/
def Token.isInline (token : Token) : Bool :=
  !token.isComment && !token.isKeywordOf Keyword.clauses &&
    !token.isKeywordOf ["CASE", "WHEN", "ELSE", "END", "COMMENT"]

/-- A token that breaks no line by itself is none of the keywords that do. -/
theorem Token.isKeyword_of_isInline {token : Token} (inline : token.isInline = true) {word : String}
    (breaks : word ∈ ["CASE", "WHEN", "ELSE", "END", "COMMENT"]) : token.isKeyword word = false := by
  rw [Bool.eq_false_iff]
  intro same
  rw [isInline, Bool.and_eq_true, Bool.not_eq_true'] at inline
  have other := inline.2
  rw [isKeywordOf, kind_of_isKeyword same, value_of_isKeyword same, List.contains_iff_mem.2 breaks] at other
  cases other

/-- A token that may be the first of an item breaks no line by itself, if it starts no clause, belongs to
no CASE and is no COMMENT. -/
theorem Token.isInline_of_beginsItem {token : Token} (begins : token.beginsItem = true)
    (noClause : token.isKeywordOf Keyword.clauses = false) (noCase : token.isKeyword "CASE" = false)
    (noElse : token.isKeyword "ELSE" = false) (noEnd : token.isKeyword "END" = false)
    (noComment : token.isKeyword "COMMENT" = false) : token.isInline = true := by
  have listed : token.isKeywordOf ["CASE", "WHEN", "ELSE", "END", "COMMENT"] = false := by
    by_cases word : token.kind = .keyword
    · have isWhen : "WHEN" ∈ Keyword.clauses := by decide
      have noWhen : token.value ≠ "WHEN" := by
        intro same
        rw [isKeywordOf, word, same, List.contains_iff_mem.2 isWhen] at noClause
        cases noClause
      simp_all [isKeyword, isKeywordOf]
    · simp [isKeywordOf, word]
  simp only [beginsItem, Bool.and_eq_true, Bool.not_eq_true'] at begins
  rw [isInline, begins.1.1, noClause, listed]
  rfl

/-! ## Tokens on a line where nothing is due -/

namespace State

variable {state : State} {token : Token}

/-- Whether a step goes on with the line and leaves nothing due. -/
structure GoesOn (result : Step) : Prop where
  /-- No line is broken. -/
  flat : Piece.newline ∉ result.2
  /-- Nothing is due behind the token. -/
  calm : result.1.Calm

/-- No line is broken before an ordinary token by itself. -/
theorem newline_not_mem_lead (state : State) : Piece.newline ∉ state.lead := by
  unfold lead
  split_ifs <;> simp

/-- Where nothing is due, a token without a layout of its own goes on with the line. -/
theorem Calm.ordinary (calm : state.Calm) (token : Token) : GoesOn (state.ordinary token) := by
  obtain ⟨inLine, noItem, noBlock⟩ := calm
  cases glued : state.gluesToDot with
  | true =>
    rw [ordinary_glued glued]
    exact ⟨by simp, rfl, noItem, noBlock⟩
  | false =>
    rw [ordinary_apart glued rfl, noItem, noBlock]
    exact ⟨by simp [newline_not_mem_lead], rfl, Bool.and_false _, rfl⟩

/-- Where nothing is due, verbatim text goes on with the line. -/
theorem Calm.verbatim (calm : state.Calm) (token : Token) : GoesOn (state.verbatim token) := by
  obtain ⟨inLine, noItem, noBlock⟩ := calm
  cases glued : state.gluesToDot with
  | true =>
    rw [verbatim_glued glued]
    exact ⟨by simp, rfl, noItem, noBlock⟩
  | false =>
    rw [verbatim_apart glued, noItem, noBlock, Bool.or_self, Bool.false_and,
      if_neg Bool.false_ne_true, List.nil_append]
    refine ⟨?_, rfl, rfl, rfl⟩
    split
    · simp
    · simp [newline_not_mem_lead]

/-- Where nothing is due, a comma in an inline parenthesis goes on with the line. -/
theorem Calm.comma (calm : state.Calm) (commas : CommaPosition)
    (inline : state.top = some .grouping) (token : Token) :
    GoesOn (State.comma commas state token) := by
  have stays : (state.top == some .grouping && !state.afterBlock) = true := by
    simp [inline, calm.noBlock]
  unfold State.comma
  rw [if_pos stays]
  exact ⟨by simp, rfl, calm.noItem, rfl⟩

/-- Nothing is due behind an inline parenthesis, whatever was due before it. -/
theorem calm_openParen {following : List Token} (inline : state.classify following = .grouping) :
    (state.openParen token following).1.Calm := by
  rw [openParen_eq state token inline rfl rfl]
  exact ⟨rfl, rfl, rfl⟩

/-- Where nothing is due, an inline parenthesis goes on with the line. -/
theorem Calm.openParen (calm : state.Calm) {following : List Token}
    (inline : state.classify following = .grouping) : GoesOn (state.openParen token following) := by
  refine ⟨?_, calm_openParen inline⟩
  obtain ⟨inLine, noItem, noBlock⟩ := calm
  rw [openParen_eq state token inline rfl rfl, inLine, noItem, noBlock]
  rcases parenGap_isGap state .grouping with none | one
  · simp [none, ConstructKind.isMultiline]
  · simp [one, ConstructKind.isMultiline]

/-- Where nothing is due, the parenthesis that closes an inline one goes on with the line. -/
theorem Calm.closeParen (calm : state.Calm) (inline : state.top = some .grouping) (token : Token) :
    GoesOn (state.closeParen token) := by
  obtain ⟨inLine, noItem, noBlock⟩ := calm
  cases state.closeParen_closing token with
  | multiline innermost lines same =>
    rw [top, innermost] at inline
    rw [Option.some.inj inline] at lines
    cases lines
  | inline noLines same =>
    rw [same]
    exact ⟨by simp [inLine], rfl, noItem, rfl⟩

/-- Where nothing is due, a keyword that breaks no line by itself goes on with the line. -/
theorem Calm.keyword (calm : state.Calm) (word : token.kind = .keyword)
    (inline : token.isInline = true) (following : List Token) :
    GoesOn (state.keyword token following) := by
  have other {value : String} (breaks : value ∈ ["CASE", "WHEN", "ELSE", "END", "COMMENT"]) :
      token.value ≠ value := by
    have noKeyword := Token.isKeyword_of_isInline inline breaks
    simpa [Token.isKeyword, word] using noKeyword
  have noClause : Keyword.clauses.contains token.value = false := by
    simp only [Token.isInline, Token.isKeywordOf, word, Bool.and_eq_true, Bool.not_eq_true'] at inline
    simpa using inline.1.2
  have noBranch : ¬ ((token.value = "WHEN" ∨ token.value = "ELSE") ∧ state.caseLevels ≠ []) :=
    fun branch => branch.1.elim (other (by decide)) (other (by decide))
  have noEnd : ¬ (token.value = "END" ∧ state.caseLevels ≠ []) := fun ends => other (by decide) ends.1
  rw [keyword_other state (other (by decide)) noBranch noEnd, noClause,
    beq_false_of_ne (other (by decide)), Bool.false_and, Bool.or_self, if_neg Bool.false_ne_true]
  exact calm.ordinary token

/-- Where nothing is due, a token that breaks no line by itself goes on with the line, if it opens no
parenthesis with lines of its own, and an inline one is open around a comma or a closing parenthesis. -/
theorem Calm.place (calm : state.Calm) (commas : CommaPosition)
    (inside : token.kind = .comma ∨ token.kind = .rparen → state.top = some .grouping)
    (inline : token.isInline = true) (goesOn : token.kind ≠ .semicolon) (following : List Token)
    (grouped : token.kind = .lparen →
      (state.place commas token following).1.top = some .grouping) :
    GoesOn (state.place commas token following) := by
  have noComment : token.isComment = false := by
    simp only [Token.isInline, Bool.and_eq_true, Bool.not_eq_true'] at inline
    exact inline.1.1
  cases state.place_handled commas token following with
  | comment kind same =>
    rw [noComment] at kind
    cases kind
  | semicolon kind same => exact absurd kind goesOn
  | openParen kind same =>
    have opened := grouped kind
    rw [same, openParen_eq state token rfl rfl rfl] at opened
    rw [same]
    exact calm.openParen (Option.some.inj opened)
  | closeParen kind same =>
    rw [same]
    exact calm.closeParen (inside (Or.inr kind)) token
  | comma kind same =>
    rw [same]
    exact calm.comma commas (inside (Or.inl kind)) token
  | dot kind same =>
    rw [same]
    exact ⟨by simp [dot], rfl, calm.noItem, calm.noBlock⟩
  | keyword kind same =>
    obtain ⟨line, -, awaits, block⟩ := state.note_same token
    have noted : (state.note token).Calm :=
      ⟨line.trans calm.inLine, awaits.trans calm.noItem, block.trans calm.noBlock⟩
    rw [same]
    exact noted.keyword kind inline following
  | verbatim kind same =>
    rw [same]
    exact calm.verbatim token
  | ordinary kind same =>
    rw [same]
    exact calm.ordinary token

end State

/-- Where nothing is due, a word, a literal, an operator or an opening parenthesis that breaks no line by
itself goes on with the line. -/
theorem Entry.Leaves.flat_of_calm {commas : CommaPosition} {state : State} {entry : Entry}
    (leaves : entry.Leaves commas state) (calm : state.Calm) (heads : entry.token.kind.heads = true)
    (inline : entry.token.isInline = true) : Piece.newline ∉ entry.gap := by
  have other {kind : Kind} (mark : kind.heads = false) := Token.kind_ne_of_heads heads mark
  by_cases opens : entry.token.kind = .lparen
  · obtain ⟨inLine, noItem, noBlock⟩ := calm
    exact leaves.flat_openParen opens (by rw [inLine, noItem, noBlock]; rfl)
  · obtain ⟨following, pieces, -⟩ := leaves.place
    have placed := calm.place commas (fun mark => mark.elim (absurd · (other rfl)) (absurd · (other rfl)))
      inline (other rfl) following fun open' => absurd open' opens
    intro broken
    apply placed.flat
    rw [← pieces]
    exact (List.takeWhile_sublist Piece.isGap).subset broken

/-! ## Nested inline parentheses -/

/-- Whether the innermost parentheses are inline, as many as a depth says and the one around these. -/
structure Frame.Inline (frame : Frame) (depth : Nat) : Prop where
  /-- The outermost of the parentheses is open. -/
  within : depth < frame.constructs.length
  /-- All of the parentheses are inline. -/
  kinds : ∀ construct ∈ frame.constructs.take (depth + 1), construct.kind = .grouping

/-- The innermost parenthesis is inline, and the others are where it is not the outermost. -/
theorem Frame.Inline.innermost {frame : Frame} {depth : Nat} (inline : frame.Inline depth) :
    ∃ construct outer, frame.constructs = construct :: outer ∧ construct.kind = .grouping ∧
      ∀ inner, depth = inner + 1 → ∀ level caseLevels, Frame.Inline ⟨level, outer, caseLevels⟩ inner := by
  obtain ⟨within, kinds⟩ := inline
  cases constructs : frame.constructs with
  | nil => simp [constructs] at within
  | cons construct outer =>
    rw [constructs] at within kinds
    rw [List.take_succ_cons, List.forall_mem_cons] at kinds
    refine ⟨construct, outer, rfl, kinds.1, ?_⟩
    rintro inner rfl level caseLevels
    exact ⟨Nat.lt_of_succ_lt_succ within, kinds.2⟩

/-- A token that belongs to no CASE and opens no parenthesis with lines of its own keeps the innermost
parentheses inline, down to the brackets that are open behind it. -/
theorem Shifts.inline {token : Token} {frame next : Frame} (shifts : Shifts token frame next)
    {brackets inner : List Bracket} (inline : frame.Inline brackets.length)
    (nests : token.nests brackets = some inner)
    (noCase : token.isKeyword "CASE" = false ∧ token.isKeyword "END" = false)
    (grouped : token.kind = .lparen →
      next.constructs.head?.map Construct.kind = some .grouping) :
    next.Inline inner.length := by
  obtain ⟨construct, outer, innermost, -, others⟩ := inline.innermost
  cases (Token.nests_eq_some nests).2 with
  | openParen opens =>
    cases shifts with
    | openParen _ kind near =>
      refine ⟨Nat.succ_lt_succ inline.within, ?_⟩
      rw [List.length_cons, List.take_succ_cons]
      exact List.forall_mem_cons.2 ⟨Option.some.inj (grouped opens), inline.kinds⟩
    | _ => simp_all [Token.isKeyword]
  | openCase opens => rw [noCase.1] at opens; cases opens
  | closeCase closes => rw [noCase.2] at closes; cases closes
  | closeParen closes =>
    cases shifts with
    | closeParen _ same =>
      rw [innermost] at same
      obtain ⟨rfl, rfl⟩ := List.cons.inj same
      exact others _ rfl _ _
    | stays _ closesNone => rw [closesNone.1 closes] at innermost; cases innermost
    | _ => simp_all [Token.isKeyword]
  | stays noParen _ =>
    cases shifts with
    | stays => exact inline
    | statement ends => exact absurd ends (Token.goesOn_of_nests nests).2
    | _ => simp_all

/-- Whether nothing is due in a state, and its innermost parentheses are inline, one for every bracket that
is open and the one around these. -/
structure State.Inlined (state : State) (brackets : List Bracket) : Prop where
  /-- Nothing is due. -/
  calm : state.Calm
  /-- The parentheses are inline. -/
  inline : state.frame.Inline brackets.length

/-- The innermost of inline parentheses is inline. -/
theorem State.Inlined.top {state : State} {brackets : List Bracket}
    (inlined : state.Inlined brackets) : state.top = some .grouping := by
  obtain ⟨construct, outer, innermost, kind, -⟩ := inlined.inline.innermost
  rw [State.top, show state.constructs = construct :: outer from innermost]
  exact congrArg some kind

namespace Entry

variable {commas : CommaPosition} {state : State} {entry : Entry}

/-- A token that breaks no line by itself and nests in inline parentheses goes on with the line, and the
parentheses that are open behind it are inline. -/
theorem Leaves.inlined (leaves : entry.Leaves commas state) {brackets inner : List Bracket}
    (inlined : state.Inlined brackets) (nests : entry.token.nests brackets = some inner)
    (inline : entry.token.isInline = true)
    (grouped : entry.token.kind = .lparen → entry.state.top = some .grouping) :
    Piece.newline ∉ entry.pieces ∧ entry.state.Inlined inner := by
  obtain ⟨following, pieces, next⟩ := leaves.place
  have goesOn := (Token.goesOn_of_nests nests).2
  have placed := inlined.calm.place commas (fun _ => inlined.top) inline goesOn following
    fun opens => by
      have top := grouped opens
      rw [next] at top
      exact top
  have calm : entry.state.Calm := by
    rw [next]
    exact ⟨placed.calm.inLine, placed.calm.noItem, placed.calm.noBlock⟩
  have noCase : entry.token.isKeyword "CASE" = false ∧ entry.token.isKeyword "END" = false :=
    ⟨Token.isKeyword_of_isInline inline (by decide), Token.isKeyword_of_isInline inline (by decide)⟩
  exact ⟨pieces ▸ placed.flat, calm, leaves.shifts.inline inlined.inline nests noCase grouped⟩

end Entry

/-- Tokens that break no line by themselves and nest in inline parentheses go on with the line. -/
theorem Walk.inlined {commas : CommaPosition} {state : State} {entries : List Entry}
    (walk : Walk commas state entries) {brackets inner : List Bracket}
    (inlined : state.Inlined brackets)
    (nests : openBrackets brackets (entries.map Entry.token) = some inner)
    (inline : ∀ entry ∈ entries, entry.token.isInline = true)
    (grouped : ∀ entry ∈ entries, entry.token.kind = .lparen → entry.state.top = some .grouping) :
    (∀ entry ∈ entries, Piece.newline ∉ entry.pieces) ∧ (state.after entries).Inlined inner := by
  -- The brackets are those that are open before the entries left, so the parenthesis around all of them
  -- is never closed.
  induction walk generalizing brackets with
  | done state =>
    rw [← Option.some.inj nests]
    exact ⟨fun _ member => absurd member List.not_mem_nil, inlined⟩
  | next leaves others ih =>
    rw [List.map_cons, openBrackets] at nests
    obtain ⟨next, here, later⟩ := Option.bind_eq_some_iff.1 nests
    rw [List.forall_mem_cons] at inline grouped
    obtain ⟨flat, opened⟩ := leaves.inlined inlined here inline.1 grouped.1
    obtain ⟨flats, closed⟩ := ih opened later inline.2 grouped.2
    exact ⟨List.forall_mem_cons.2 ⟨flat, flats⟩, closed⟩

/-! ## The parentheses around them -/

namespace Entry

variable {commas : CommaPosition} {state : State} {entry : Entry}

/-- A token that ends no line has nothing behind it. -/
theorem Leaves.pieces_of_within (leaves : entry.Leaves commas state)
    (within : entry.state.lineStart = false) : entry.pieces = entry.gap ++ [.word entry.token] := by
  obtain ⟨following, pieces, next⟩ := leaves.place
  obtain ⟨before, breaks, opens, shape, line⟩ := state.place_places commas entry.token following
  rw [← pieces] at shape
  have none : breaks = 0 := by
    rw [next] at within
    have noBreak := of_decide_eq_false (line.symm.trans within)
    omega
  rw [none, List.replicate_zero] at shape
  have gap : entry.gap = before := by
    rw [Entry.gap, shape]
    exact State.takeWhile_isGap opens.blank entry.token []
  rw [gap, shape]

/-- Behind an inline parenthesis nothing is due, whatever was due before it. -/
theorem Leaves.inlined_openParen (leaves : entry.Leaves commas state)
    (opens : entry.token.kind = .lparen) (grouped : entry.state.top = some .grouping) :
    entry.state.Inlined [] := by
  obtain ⟨following, step⟩ := leaves.step
  obtain ⟨-, next⟩ := placed step
  rw [State.place, opens] at next
  have inline : state.classify following = .grouping :=
    Option.some.inj ((top_openParen step opens).symm.trans grouped)
  have calm : (state.openParen entry.token following).1.Calm := State.calm_openParen inline
  refine ⟨?_, ?_⟩
  · rw [next]
    exact ⟨calm.inLine, calm.noItem, calm.noBlock⟩
  · obtain ⟨construct, innermost, kind⟩ := Option.map_eq_some_iff.1 grouped
    obtain ⟨outer, held⟩ := List.head?_eq_some_iff.1 innermost
    refine ⟨by simp [State.frame, held], fun other member => ?_⟩
    simp only [State.frame, held, List.length_nil, Nat.zero_add, List.take_succ_cons, List.take_zero,
      List.mem_singleton] at member
    rw [member, kind]

/-- The parenthesis that closes an inline one goes on with the line. -/
theorem Leaves.flat_closeParen (leaves : entry.Leaves commas state)
    (closes : entry.token.kind = .rparen) (inlined : state.Inlined []) :
    Piece.newline ∉ entry.gap := by
  obtain ⟨following, pieces, -⟩ := leaves.place
  rw [State.place, closes] at pieces
  have flat := (inlined.calm.closeParen inlined.top entry.token).flat
  intro broken
  apply flat
  rw [← pieces]
  exact (List.takeWhile_sublist Piece.isGap).subset broken

end Entry

/-- Inline parentheses stay on their line. Wherever an inline parenthesis with well-nested contents
stands, no line is broken from behind it up to the parenthesis that closes it, if no token between them
breaks lines by itself and every parenthesis nested in it is inline too. -/
theorem inline_paren_unbroken (commas : CommaPosition) (tokens : List Token)
    {before inside after : List Entry} {opening closing : Entry}
    (split : course commas tokens = before ++ opening :: (inside ++ closing :: after))
    (opens : opening.token.kind = .lparen) (closes : closing.token.kind = .rparen)
    (nested : WellNested (inside.map Entry.token)) (grouping : opening.state.top = some .grouping)
    (inline : ∀ entry ∈ inside, entry.token.isInline = true)
    (grouped : ∀ entry ∈ inside, entry.token.kind = .lparen → entry.state.top = some .grouping) :
    opening.pieces = opening.gap ++ [.word opening.token] ∧
      (∀ entry ∈ inside, Piece.newline ∉ entry.pieces) ∧ Piece.newline ∉ closing.gap := by
  obtain ⟨-, leaves, others⟩ := walk_split split
  obtain ⟨inner, last⟩ := others.append
  have opened := leaves.inlined_openParen opens grouping
  obtain ⟨flats, closed⟩ := inner.inlined opened nested inline grouped
  exact ⟨leaves.pieces_of_within opened.calm.inLine, flats, last.head.1.flat_closeParen closes closed⟩

/-- The first item of a selection starts a line with its parenthesis, and stays on it, though commas are
put first. -/
theorem inline_paren_unbroken_selection :
    format ⟨2, .upper, .leading⟩ "select (a, f(b, (c)), d.e), g" =
      "SELECT\n  (a, f(b, (c)), d.e)\n, g\n" ∧
    ∃ before opening inside closing after,
      course .leading (fuse (tokenize "select (a, f(b, (c)), d.e), g")) =
        before ++ opening :: (inside ++ closing :: after) ∧
      opening.token.kind = .lparen ∧ closing.token.kind = .rparen ∧ inside.length = 14 ∧
      Piece.newline ∈ opening.pieces ∧ opening.pieces = opening.gap ++ [.word opening.token] ∧
      (∀ entry ∈ inside, Piece.newline ∉ entry.pieces) ∧ Piece.newline ∉ closing.gap := by
  let entries := course .leading (fuse (tokenize "select (a, f(b, (c)), d.e), g"))
  let before := entries.take 1
  let opening := entries[1]!
  let inside := (entries.drop 2).take 14
  let closing := entries[16]!
  let after := entries.drop 17
  have facts : format ⟨2, .upper, .leading⟩ "select (a, f(b, (c)), d.e), g" =
        "SELECT\n  (a, f(b, (c)), d.e)\n, g\n" ∧
      entries = before ++ opening :: (inside ++ closing :: after) ∧ opening.token.kind = .lparen ∧
      closing.token.kind = .rparen ∧ inside.length = 14 ∧ Piece.newline ∈ opening.pieces ∧
      WellNested (inside.map Entry.token) ∧ opening.state.top = some .grouping ∧
      (∀ entry ∈ inside, entry.token.isInline = true) ∧
      ∀ entry ∈ inside, entry.token.kind = .lparen → entry.state.top = some .grouping := by
    decide +kernel
  obtain ⟨text, split, opens, closes, count, broken, nested, grouping, inline, grouped⟩ := facts
  exact ⟨text, before, opening, inside, closing, after, split, opens, closes, count, broken,
    inline_paren_unbroken .leading _ split opens closes nested grouping inline grouped⟩

end SqlLayout
