import SqlLayout.Proofs.Handlers

/-!
# Where tokens are placed

Laying out one token writes it once, with spacing before it and line breaks behind it
(`step_places`). Within a line the spacing is missing only where two tokens may touch (`Abuts`), and
a comment always ends its line. Over a whole run every token is written once and in order, apart
from the token before it (`spread_pieces`).
-/

namespace SqlLayout

/-- Whether a piece is spacing. -/
def Piece.isGap : Piece → Bool
  | .word _ => false
  | _ => true

namespace Token

/-- Whether the text of a token starts with the end of a line. -/
def startsLine (token : Token) : Bool :=
  token.value.toList.head?.any fun c => c == '\n' || c == '\r'

/-- Whether a token may follow another one within a line without a space between them. -/
def Abuts (last token : Token) : Prop :=
  last.kind = .lparen ∨ last.kind = .dot ∨ token.kind = .lparen ∨ token.kind = .rparen ∨
    token.kind = .comma ∨ token.kind = .semicolon ∨ token.kind = .dot ∨ token.startsLine = true

end Token

/-- The tokens of a list that a layout writes: those before the end that are not layout. -/
def written (tokens : List Token) : List Token :=
  (tokens.takeWhile fun token => token.kind != .eof).filter fun token => !token.isLayout

/-- Layout is not written. -/
theorem written_cons_layout {token : Token} (layout : token.isLayout = true) (rest : List Token) :
    written (token :: rest) = written rest := by
  have going : (token.kind != .eof) = true := by
    cases kind : token.kind <;> simp_all [Token.isLayout, Kind.isLayout]
  simp [written, going, layout]

/-- Nothing is written from the end on. -/
theorem written_cons_eof {token : Token} (ended : token.kind = .eof) (rest : List Token) :
    written (token :: rest) = [] := by
  simp [written, ended]

/-- Any other token is written before those behind it. -/
theorem written_cons {token : Token} (visible : token.isLayout = false) (going : token.kind ≠ .eof)
    (rest : List Token) : written (token :: rest) = token :: written rest := by
  simp [written, going, visible]

namespace State

/-! ## What one token contributes -/

/-- Whether pieces may stand before a token: they are spacing, and within a line they keep the token
apart from the one before unless the two may touch. -/
structure Opens (state : State) (token : Token) (before : List Piece) : Prop where
  /-- Only spacing stands before a token. -/
  blank : ∀ piece ∈ before, piece.isGap = true
  /-- Within a line the spacing is a break, a space, or nothing where tokens may touch. -/
  apart : state.lineStart = false → before.head? = some .newline ∨ before.head? = some .space ∨
    (before = [] ∧ ∀ last, state.last = some last → last.Abuts token)

/-- Whether a step writes its token once, with spacing before it and line breaks behind it. -/
def Places (state : State) (token : Token) (result : Step) : Prop :=
  ∃ before breaks, state.Opens token before ∧
    result.2 = before ++ .word token :: List.replicate breaks .newline ∧
    result.1.lineStart = decide (0 < breaks)

/-- A token that is written on its own may follow any token it may touch. -/
theorem opens_nil {state : State} {token : Token}
    (abuts : ∀ last, state.last = some last → last.Abuts token) : state.Opens token [] where
  blank := by simp
  apart := fun _ => Or.inr (Or.inr ⟨rfl, abuts⟩)

/-- A token on a line of its own follows a break. -/
theorem opens_freshLine {state : State} {token : Token} {gap : List Piece}
    (blank : ∀ piece ∈ gap, piece.isGap = true) :
    state.Opens token (state.freshLine.2 ++ gap) := by
  rw [freshLine_eq]
  cases h : state.lineStart with
  | true => exact ⟨by simpa using blank, fun within => by rw [h] at within; cases within⟩
  | false => exact ⟨List.forall_mem_cons.2 ⟨rfl, blank⟩, fun _ => Or.inl rfl⟩

/-- Breaks that were due stand before a token, or the spacing that its line asks for. -/
theorem opens_breaks {state : State} {token : Token} {due : Bool} {gap : List Piece}
    (blank : ∀ piece ∈ gap, piece.isGap = true)
    (within : (state.lineStart || due) = false → gap.head? = some .space ∨
      (gap = [] ∧ ∀ last, state.last = some last → last.Abuts token)) :
    state.Opens token ((if due && !state.lineStart then [.newline] else []) ++ gap) := by
  by_cases breaks : (due && !state.lineStart) = true
  · rw [if_pos breaks]
    exact ⟨List.forall_mem_cons.2 ⟨rfl, blank⟩, fun _ => Or.inl rfl⟩
  · rw [if_neg breaks, List.nil_append]
    refine ⟨blank, fun inLine => Or.inr (within ?_)⟩
    rw [inLine] at breaks ⊢
    simpa using breaks

/-- The spacing before an ordinary token. -/
theorem lead_isGap (state : State) : ∀ piece ∈ state.lead, piece.isGap = true := by
  unfold lead
  split
  · exact List.forall_mem_singleton.2 rfl
  split
  · exact List.forall_mem_nil _
  · exact List.forall_mem_singleton.2 rfl

/-- Within a line an ordinary token touches an opening parenthesis only. -/
theorem lead_within {state : State} (token : Token) (within : state.lineStart = false) :
    state.lead.head? = some .space ∨
      (state.lead = [] ∧ ∀ last, state.last = some last → last.Abuts token) := by
  unfold lead
  rw [if_neg (by simp [within])]
  split
  · rename_i follows
    refine Or.inr ⟨rfl, fun last same => Or.inl ?_⟩
    simpa [State.follows, same] using follows
  · exact Or.inl rfl

/-- A token that completes a qualified name touches the dot. -/
theorem abuts_of_gluesToDot {state : State} {token : Token} (glued : state.gluesToDot = true)
    (last : Token) (same : state.last = some last) : last.Abuts token := by
  simp only [gluesToDot, State.follows, same, Option.any_some, Bool.and_eq_true, beq_iff_eq] at glued
  exact Or.inr (Or.inl glued.1)

/-- What is placed where a line and the last token are the same is placed. -/
theorem Places.congr {state told : State} {token : Token} {result : Step}
    (places : told.Places token result) (line : told.lineStart = state.lineStart)
    (last : told.last = state.last) : state.Places token result := by
  obtain ⟨before, breaks, opens, pieces, behind⟩ := places
  refine ⟨before, breaks, ⟨opens.blank, ?_⟩, pieces, behind⟩
  rw [← line, ← last]
  exact opens.apart

/-- A token at the start of a line is placed. -/
theorem places_freshLine {state : State} {token : Token} {result : Step} {level : Int}
    (pieces : result.2 = state.freshLine.2 ++ [.indent level, .word token])
    (line : result.1.lineStart = false) : state.Places token result := by
  refine ⟨state.freshLine.2 ++ [.indent level], 0, opens_freshLine (List.forall_mem_singleton.2 rfl),
    ?_, line⟩
  rw [pieces, List.append_assoc]
  rfl

/-- A comment has its line to itself. -/
theorem comment_places (state : State) (token : Token) (following : List Token) :
    state.Places token (state.comment token following) := by
  rw [comment_eq]
  refine ⟨state.freshLine.2 ++ ((if state.statementStart || state.groupsComment then [] else
    [.newline]) ++ [.indent (state.indentLevel + state.commentLevel following)]), 1,
    opens_freshLine (List.forall_mem_append.2 ⟨?_, List.forall_mem_singleton.2 rfl⟩), ?_, rfl⟩
  · split
    · exact List.forall_mem_nil _
    · exact List.forall_mem_singleton.2 rfl
  · simp

/-- The spacing before an opening parenthesis. -/
theorem parenGap_isGap (state : State) (kind : ConstructKind) :
    state.parenGap kind = [] ∨ state.parenGap kind = [.space] := by
  unfold parenGap
  split
  · split
    · exact Or.inl rfl
    · exact Or.inr rfl
  · split
    · exact Or.inl rfl
    · exact Or.inr rfl
  · exact Or.inl rfl
  · split
    · exact Or.inl rfl
    · exact Or.inr rfl

/-- An opening parenthesis is placed. -/
theorem openParen_places {state : State} {token : Token} (paren : token.kind = .lparen)
    (following : List Token) : state.Places token (state.openParen token following) := by
  obtain ⟨kind, classified⟩ : ∃ kind, state.classify following = kind := ⟨_, rfl⟩
  obtain ⟨begun, starts⟩ : ∃ begun,
      (state.lineStart || state.awaitsFirstItem || state.afterBlock) = begun := ⟨_, rfl⟩
  obtain ⟨column, placed⟩ : ∃ column,
      state.indentLevel + (if begun then state.contentLevel else 0) = column := ⟨_, rfl⟩
  have opens : state.Opens token
      ((if (state.awaitsFirstItem || state.afterBlock) && !state.lineStart then [.newline] else []) ++
        if begun then [.indent column] else state.parenGap kind) := by
    refine opens_breaks ?_ fun within => ?_
    · split
      · exact List.forall_mem_singleton.2 rfl
      rcases state.parenGap_isGap kind with none | one
      · simp [none]
      · simp [one, Piece.isGap]
    · rw [if_neg (by rw [← starts, Bool.or_assoc, within]; nofun)]
      rcases state.parenGap_isGap kind with none | one
      · exact Or.inr ⟨none, fun _ _ => Or.inr (Or.inr (Or.inl paren))⟩
      · exact Or.inl (by rw [one]; rfl)
  rw [openParen_eq state token classified starts placed]
  cases multiline : kind.isMultiline with
  | true => exact ⟨_, 1, opens, rfl, rfl⟩
  | false => exact ⟨_, 0, opens, rfl, rfl⟩

/-- A closing parenthesis is placed. -/
theorem closeParen_places {state : State} {token : Token} (paren : token.kind = .rparen) :
    state.Places token (state.closeParen token) := by
  cases state.closeParen_closing token with
  | multiline innermost lines same =>
    rw [same]
    exact places_freshLine rfl rfl
  | inline noLines same =>
    rw [same]
    cases start : state.lineStart with
    | false =>
      exact ⟨[], 0, opens_nil fun _ _ => Or.inr (Or.inr (Or.inr (Or.inl paren))), rfl, rfl⟩
    | true =>
      refine ⟨[.indent state.indentLevel], 0, ⟨List.forall_mem_singleton.2 rfl, fun within => ?_⟩,
        rfl, rfl⟩
      rw [start] at within
      cases within

/-- A comma is placed. -/
theorem comma_places {state : State} {token : Token} (commas : CommaPosition)
    (mark : token.kind = .comma) : state.Places token (comma commas state token) := by
  have abuts : ∀ last, state.last = some last → last.Abuts token :=
    fun _ _ => Or.inr (Or.inr (Or.inr (Or.inr (Or.inl mark))))
  cases state.comma_separates commas token with
  | inline inside same =>
    rw [same]
    exact ⟨[], 0, opens_nil abuts, rfl, rfl⟩
  | trailing outside position same =>
    rw [same]
    exact ⟨[], 1, opens_nil abuts, rfl, rfl⟩
  | leading outside position same =>
    rw [same]
    exact places_freshLine rfl rfl

/-- A token without a layout of its own is placed. -/
theorem ordinary_places (state : State) (token : Token) :
    state.Places token (state.ordinary token) := by
  cases glued : state.gluesToDot with
  | true =>
    rw [ordinary_glued glued]
    exact ⟨[], 0, opens_nil (abuts_of_gluesToDot glued), rfl, rfl⟩
  | false =>
    rw [ordinary_apart glued rfl]
    refine ⟨_, 0, ?_, rfl, rfl⟩
    exact opens_breaks (lead_isGap _) fun within => lead_within token within

/-- Text that is written as it stands is placed. -/
theorem verbatim_places (state : State) (token : Token) :
    state.Places token (state.verbatim token) := by
  cases glued : state.gluesToDot with
  | true =>
    rw [verbatim_glued glued]
    exact ⟨[], 0, opens_nil (abuts_of_gluesToDot glued), rfl, rfl⟩
  | false =>
    rw [verbatim_apart glued]
    refine ⟨_, 0, opens_breaks ?_ fun within => ?_, rfl, rfl⟩
    · split
      · exact List.forall_mem_nil _
      · exact lead_isGap _
    · split
      · rename_i touches
        rw [Bool.and_eq_true] at touches
        exact Or.inr ⟨rfl, fun _ _ => by simp [Token.Abuts, Token.startsLine, touches.2]⟩
      · exact lead_within token within

/-- A keyword is placed. -/
theorem keyword_places (state : State) (token : Token) (following : List Token) :
    state.Places token (state.keyword token following) := by
  cases state.keyword_worded token following with
  | openCase opens same =>
    rw [same, openCase_eq]
    exact places_freshLine rfl rfl
  | branch value within same =>
    rw [same, keywordLine_eq]
    exact places_freshLine rfl rfl
  | closeCase closes innermost same =>
    rw [same, closeCase_eq]
    exact places_freshLine rfl rfl
  | clause notCase noEnd same =>
    rw [same, clause_eq]
    exact places_freshLine rfl rfl
  | item notCase noEnd same =>
    rw [same]
    exact ordinary_places state token

/-- Every token is placed. -/
theorem place_places (commas : CommaPosition) (state : State) (token : Token)
    (following : List Token) : state.Places token (state.place commas token following) := by
  cases state.place_handled commas token following with
  | comment kind same =>
    rw [same]
    exact comment_places state token following
  | semicolon kind same =>
    rw [same]
    exact ⟨[], 2, opens_nil fun _ _ => by simp [Token.Abuts, kind], rfl, rfl⟩
  | openParen kind same =>
    rw [same]
    exact openParen_places kind following
  | closeParen kind same =>
    rw [same]
    exact closeParen_places kind
  | comma kind same =>
    rw [same]
    exact comma_places commas kind
  | dot kind same =>
    rw [same]
    exact ⟨[], 0, opens_nil fun _ _ => by simp [Token.Abuts, kind], rfl, rfl⟩
  | keyword kind same =>
    obtain ⟨line, last, -, -⟩ := state.note_same token
    rw [same]
    exact (keyword_places (state.note token) token following).congr line last
  | verbatim kind same =>
    rw [same]
    exact verbatim_places state token
  | ordinary kind same =>
    rw [same]
    exact ordinary_places state token

/-- A comment leaves nothing on its line. -/
theorem lineStart_of_comment (commas : CommaPosition) (state : State) {token : Token}
    (comment : token.isComment = true) (following : List Token) :
    (state.place commas token following).1.lineStart = true := by
  rw [place_comment commas state comment, comment_eq]

/-- Verbatim text leaves its line open. -/
theorem lineStart_of_verbatim (commas : CommaPosition) (state : State) {token : Token}
    (verbatim : token.kind = .dollarString) (following : List Token) :
    (state.place commas token following).1.lineStart = false := by
  unfold place
  rw [verbatim]
  dsimp only
  unfold State.verbatim
  split <;> rfl

/-- A semicolon is written with nothing before it. -/
theorem place_semicolon (commas : CommaPosition) (state : State) {token : Token}
    (mark : token.kind = .semicolon) (following : List Token) :
    (state.place commas token following).2 = [.word token, .newline, .newline] := by
  unfold place
  rw [mark]
  rfl

/-! ## Bodies -/

/-- Whether a token list, read backwards, ends like a header before a body. -/
def Introduces (earlier : List Token) : Prop :=
  ∃ mark name rest, earlier = mark :: name :: rest ∧ mark.isKeyword "AS" = true ∧ name.kind ≠ .dot

/-- Whether nothing is due before the next token of the line. -/
structure Calm (state : State) : Prop where
  /-- Something stands on the line. -/
  inLine : state.lineStart = false
  /-- No selection item is awaited. -/
  noItem : state.awaitsFirstItem = false
  /-- No block has just closed. -/
  noBlock : state.afterBlock = false

/-- An `AS` that completes no qualified name takes every break that is due. -/
theorem calm_place (commas : CommaPosition) {state : State} {token : Token}
    (mark : token.isKeyword "AS" = true) (free : state.follows .dot = false)
    (following : List Token) : (state.place commas token following).1.Calm := by
  simp only [Token.isKeyword, Bool.and_eq_true, beq_iff_eq] at mark
  obtain ⟨kind, value⟩ := mark
  obtain ⟨-, sameLast, -, -⟩ := state.note_same token
  have unglued : (state.note token).gluesToDot = false := by
    rw [gluesToDot, State.follows, sameLast]
    rw [State.follows] at free
    rw [free, Bool.false_and]
  have plain : state.place commas token following = (state.note token).ordinary token := by
    have noClause : "AS" ∉ Keyword.clauses := by decide
    unfold place
    rw [kind]
    simp [keyword, value, noClause]
  have stays : (token.isKeyword "DISTINCT" || token.isKeyword "ALL") = false := by
    simp [Token.isKeyword, value]
  rw [plain, ordinary_apart unglued stays]
  exact ⟨rfl, rfl, rfl⟩

/-- A body follows its header behind a space, or directly when it starts with the end of a line. -/
theorem place_body (commas : CommaPosition) {state : State} (calm : state.Calm) {mark token : Token}
    (last : state.last = some mark) (header : mark.isKeyword "AS" = true)
    (body : token.kind = .dollarString) (following : List Token) :
    (state.place commas token following).2 =
      (if token.startsLine then [] else [.space]) ++ [.word token] := by
  simp only [Token.isKeyword, Bool.and_eq_true, beq_iff_eq] at header
  have unglued : state.gluesToDot = false := by simp [gluesToDot, State.follows, last, header.1]
  have spaced (begun : Bool) (within : begun = false) :
      { state with lineStart := begun }.lead = [.space] := by
    simp [lead, State.follows, last, header.1, within]
  rw [place, body]
  dsimp only
  rw [verbatim_apart unglued, spaced _ (by simp [calm.inLine, calm.noItem, calm.noBlock])]
  simp only [calm.inLine, calm.noItem, calm.noBlock, Bool.or_false, Bool.not_false, Bool.true_and,
    Bool.false_and, Bool.false_eq_true, if_false, List.nil_append]
  rfl

/-! ## A whole run -/

/-- Whether spacing may stand before a token, given the tokens before it, nearest first. -/
structure Parted (earlier : List Token) (gap : List Piece) (token : Token) : Prop where
  /-- Only spacing stands between two tokens. -/
  blank : ∀ piece ∈ gap, piece.isGap = true
  /-- A comment is followed by a break, and any other token by a break, a space, or nothing where
  two tokens may touch. -/
  apart : ∀ last, earlier.head? = some last → gap.head? = some .newline ∨
    (last.isComment = false ∧ (gap.head? = some .space ∨ (gap = [] ∧ last.Abuts token)))
  /-- A body starts on the line of its header. -/
  body : Introduces earlier → token.kind = .dollarString →
    gap = if token.startsLine then [] else [.space]
  /-- A semicolon touches verbatim text before it. -/
  closing : ∀ last, earlier.head? = some last → last.kind = .dollarString →
    token.kind = .semicolon → gap = []

/-- The pieces that lay out tokens behind others, which are given nearest first: every token once
and in order, each apart from the one before it, and line breaks at the end. -/
inductive Spread : List Token → List Token → List Piece → Prop
  /-- No token is left. -/
  | done (earlier : List Token) (breaks : Nat) :
    Spread earlier [] (List.replicate breaks .newline)
  /-- The next token stands behind its spacing. -/
  | word {earlier rest : List Token} {token : Token} {gap pieces : List Piece}
    (parted : Parted earlier gap token) (others : Spread (token :: earlier) rest pieces) :
    Spread earlier (token :: rest) (gap ++ .word token :: pieces)

/-- What a state knows about the tokens before it, with the breaks that were written last. -/
structure Behind (state : State) (earlier : List Token) (breaks : Nat) : Prop where
  /-- The last token is remembered. -/
  last : state.last = earlier.head?
  /-- A line has just begun exactly when a break was written last. -/
  line : earlier ≠ [] → state.lineStart = decide (0 < breaks)
  /-- A comment ends its line. -/
  comment : ∀ token, earlier.head? = some token → token.isComment = true → 0 < breaks
  /-- Verbatim text does not. -/
  verbatim : ∀ token, earlier.head? = some token → token.kind = .dollarString → breaks = 0
  /-- Nothing is due behind a header. -/
  calm : Introduces earlier → state.Calm

/-- The spacing of a token, with the breaks written before, keeps it apart. -/
theorem Behind.parted {state : State} {earlier : List Token} {breaks : Nat} {token : Token}
    {before : List Piece} (behind : state.Behind earlier breaks) (opens : state.Opens token before)
    (body : Introduces earlier → token.kind = .dollarString →
      before = if token.startsLine then [] else [.space])
    (closing : token.kind = .semicolon → before = []) :
    Parted earlier (List.replicate breaks .newline ++ before) token where
  blank := by
    intro piece member
    rcases List.mem_append.1 member with newline | rest
    · rw [List.eq_of_mem_replicate newline]
      rfl
    · exact opens.blank piece rest
  apart := by
    intro last found
    have begun := behind.line (by rintro rfl; cases found)
    cases breaks with
    | succ breaks => exact Or.inl rfl
    | zero =>
      have noComment : last.isComment = false :=
        Bool.eq_false_iff.2 fun comment => Nat.lt_irrefl 0 (behind.comment last found comment)
      have known := behind.last.trans found
      rcases opens.apart begun with newline | space | ⟨none, abuts⟩
      · exact Or.inl newline
      · exact Or.inr ⟨noComment, Or.inl space⟩
      · exact Or.inr ⟨noComment, Or.inr ⟨by rw [none]; rfl, abuts last known⟩⟩
  body := by
    intro header kind
    have begun := behind.line (by rintro rfl; obtain ⟨_, _, _, same, -⟩ := header; cases same)
    have calm := behind.calm header
    rw [calm.inLine] at begun
    have noBreaks : breaks = 0 := by
      have := of_decide_eq_false begun.symm
      omega
    rw [noBreaks, body header kind]
    rfl
  closing := by
    intro last found verbatim mark
    rw [behind.verbatim last found verbatim, closing mark]
    rfl

/-- The spacing before a token can be read off the pieces. -/
theorem takeWhile_isGap {gap : List Piece} (blank : ∀ piece ∈ gap, piece.isGap = true)
    (token : Token) (pieces : List Piece) :
    (gap ++ .word token :: pieces).takeWhile Piece.isGap = gap := by
  rw [List.takeWhile_append_of_pos blank, List.takeWhile_cons_of_neg (by simp [Piece.isGap]),
    List.append_nil]

/-- One step keeps what a state knows about the tokens before it. -/
theorem step_behind (commas : CommaPosition) {state : State} {earlier : List Token} {breaks : Nat}
    (behind : state.Behind earlier breaks) (token : Token) (following : List Token) :
    ∃ gap after, Parted earlier (List.replicate breaks .newline ++ gap) token ∧
      (state.step commas token following).2 =
        gap ++ .word token :: List.replicate after .newline ∧
      (state.step commas token following).1.Behind (token :: earlier) after := by
  obtain ⟨before, after, opens, pieces, line⟩ := state.place_places commas token following
  refine ⟨before, after, behind.parted opens (fun header body => ?_) (fun mark => ?_), pieces, rfl,
    fun _ => line, fun other same comment => ?_, fun other same verbatim => ?_, fun header => ?_⟩
  · obtain ⟨mark, name, rest, rfl, isMark, -⟩ := id header
    rw [place_body commas (behind.calm header) behind.last isMark body following] at pieces
    have cut := congrArg (List.takeWhile Piece.isGap) pieces
    rw [takeWhile_isGap opens.blank, takeWhile_isGap] at cut
    · exact cut.symm
    · intro piece member
      split at member
      · cases member
      · rw [List.mem_singleton.1 member]
        rfl
  · rw [place_semicolon commas state mark following] at pieces
    have cut := congrArg (List.takeWhile Piece.isGap) pieces
    rw [takeWhile_isGap opens.blank] at cut
    exact cut.symm
  · obtain rfl : token = other := Option.some.inj same
    have begun := lineStart_of_comment commas state comment following
    rw [line] at begun
    exact of_decide_eq_true begun
  · obtain rfl : token = other := Option.some.inj same
    have open' := lineStart_of_verbatim commas state verbatim following
    rw [line] at open'
    have none := of_decide_eq_false open'
    omega
  · obtain ⟨mark, name, rest, same, isMark, apart⟩ := header
    obtain ⟨rfl, rfl⟩ : token = mark ∧ earlier = name :: rest := by simpa using same
    have free : state.follows .dot = false := by
      simp [State.follows, behind.last, apart]
    obtain ⟨inLine, noItem, noBlock⟩ := calm_place commas isMark free following
    exact ⟨inLine, noItem, noBlock⟩

end State

open State

/-- From a state that knows the tokens before it, a run lays out the tokens it writes. -/
theorem spread_piecesFrom (commas : CommaPosition) {state : State} {earlier : List Token}
    {breaks : Nat} (behind : state.Behind earlier breaks) (tokens : List Token) :
    Spread earlier (written tokens)
      (List.replicate breaks .newline ++ piecesFrom commas state tokens) := by
  induction tokens generalizing state earlier breaks with
  | nil => simpa [written, piecesFrom, courseFrom] using Spread.done earlier breaks
  | cons token rest ih =>
    by_cases layout : token.isLayout = true
    · rw [written_cons_layout layout, piecesFrom, courseFrom, if_pos layout]
      exact ih behind
    by_cases ended : token.kind = .eof
    · rw [written_cons_eof ended, piecesFrom, courseFrom, if_neg layout, if_pos ended]
      simpa using Spread.done earlier breaks
    · obtain ⟨gap, after, parted, pieces, next⟩ := step_behind commas behind token rest
      have split : List.replicate breaks Piece.newline ++
            piecesFrom commas state (token :: rest) =
          (List.replicate breaks Piece.newline ++ gap) ++ .word token ::
            (List.replicate after Piece.newline ++
              piecesFrom commas (state.step commas token rest).1 rest) := by
        rw [piecesFrom, courseFrom, if_neg layout, if_neg ended]
        simp [piecesFrom, pieces]
      rw [written_cons (by simpa using layout) ended, split]
      exact Spread.word parted (ih next)

/-- A layout writes every token before the end once and in order, apart from the token before. -/
theorem spread_pieces (commas : CommaPosition) (tokens : List Token) :
    Spread [] (written tokens) (pieces commas tokens) := by
  have initial : State.Behind {} [] 0 :=
    { last := rfl
      line := fun none => absurd rfl none
      comment := nofun
      verbatim := nofun
      calm := fun header => by obtain ⟨_, _, _, same, -⟩ := header; cases same }
  exact spread_piecesFrom commas initial tokens

end SqlLayout
