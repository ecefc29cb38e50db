import SqlLayout.Proofs.Levels
import SqlLayout.Proofs.Preservation

/-!
# The spacing between tokens

A layout puts one of four things between two tokens: nothing, a space, or an indented new line, with
or without a blank line before it. A token is written with a part of the gap before it
(`State.step_spaced`), which the breaks behind the token before complete (`State.Rests.complete`). The
gaps are settled before a letter case or the width of a level is known (`layout_shape`).
-/

namespace SqlLayout

/-- What stands between two tokens. -/
inductive Gap where
  /-- Nothing. -/
  | none
  /-- One space. -/
  | space
  /-- A line break and the indentation of the new line. -/
  | line (level : Nat)
  /-- A line break, a blank line and the indentation of the new line. -/
  | blankLine (level : Nat)
deriving DecidableEq

namespace Gap

/-- A gap as it is written, for a width of a level. -/
def text (size : Int) : Gap → List Char
  | .none => []
  | .space => [' ']
  | .line level => '\n' :: indentation size level
  | .blankLine level => '\n' :: '\n' :: indentation size level

end Gap

namespace State

/-! ## Before one token -/

/-- Whether pieces may be written before the next token of a layout: they start a line that something
stands on anew, or indent one that has just begun. -/
inductive Leads (state : State) : List Piece → Prop
  /-- Nothing is written. -/
  | none : Leads state []
  /-- A space within a line. -/
  | space (within : state.lineStart = false) : Leads state [.space]
  /-- The indentation of a line that has begun. -/
  | indent (begun : state.lineStart = true) {level : Int} (grounded : 0 ≤ level) :
    Leads state [.indent level]
  /-- A break, which may stand at the start of a line inside a statement only. -/
  | line (free : state.lineStart = false ∨ state.statementStart = false) {level : Int}
    (grounded : 0 ≤ level) : Leads state [.newline, .indent level]
  /-- A break and a blank line, within a line. -/
  | blankLine (within : state.lineStart = false) {level : Int} (grounded : 0 ≤ level) :
    Leads state [.newline, .newline, .indent level]

/-- The breaks behind the last token: a blank line only ends a statement. -/
structure Rests (state : State) (breaks : Nat) : Prop where
  /-- A line has just begun exactly when a break was written last. -/
  line : state.lineStart = decide (0 < breaks)
  /-- There is one blank line at most. -/
  most : breaks ≤ 2
  /-- A statement begins behind a blank line. -/
  blank : breaks = 2 → state.statementStart = true

/-- Whether a step writes a token with a part of a gap before it and breaks behind it. -/
def Spaced (state : State) (token : Token) (result : Step) : Prop :=
  ∃ before breaks, state.Leads before ∧
    result.2 = before ++ .word token :: List.replicate breaks .newline ∧ result.1.Rests breaks

/-- Nothing breaks the line of a token behind it. -/
theorem rests_zero {state : State} (within : state.lineStart = false) : state.Rests 0 :=
  ⟨within, by omega, by omega⟩

/-- One break starts a line behind a token. -/
theorem rests_one {state : State} (begun : state.lineStart = true) : state.Rests 1 :=
  ⟨begun, by omega, by omega⟩

/-- Where a line and a statement start decides on the spacing before a token. -/
theorem Leads.congr {state told : State} {before : List Piece} (leads : told.Leads before)
    (line : state.lineStart = told.lineStart) (start : state.statementStart = told.statementStart) :
    state.Leads before := by
  cases leads with
  | none => exact Leads.none
  | space within => exact Leads.space (line.trans within)
  | indent begun grounded => exact Leads.indent (line.trans begun) grounded
  | line free grounded => exact Leads.line (by rwa [line, start]) grounded
  | blankLine within grounded => exact Leads.blankLine (line.trans within) grounded

/-- The other fields of the next state do not matter. -/
theorem Spaced.congr {state : State} {token : Token} {result other : Step}
    (spaced : state.Spaced token result) (pieces : other.2 = result.2)
    (line : other.1.lineStart = result.1.lineStart)
    (start : other.1.statementStart = result.1.statementStart) : state.Spaced token other := by
  obtain ⟨before, breaks, leads, shape, rests⟩ := spaced
  exact ⟨before, breaks, leads, pieces.trans shape, line.trans rests.line, rests.most,
    fun two => start.trans (rests.blank two)⟩

/-- A fresh line is indented. -/
theorem leads_freshLine (state : State) {level : Int} (grounded : 0 ≤ level) :
    state.Leads (state.freshLine.2 ++ [.indent level]) := by
  rw [freshLine_eq]
  cases start : state.lineStart with
  | false => exact Leads.line (Or.inl start) grounded
  | true => exact Leads.indent start grounded

/-- A token at the start of a line that is not before the margin is spaced. -/
theorem spaced_freshLine {state : State} {token : Token} {result : Step} {level : Int}
    (grounded : 0 ≤ level)
    (pieces : result.2 = state.freshLine.2 ++ [.indent level, .word token])
    (line : result.1.lineStart = false) : state.Spaced token result := by
  refine ⟨_, 0, leads_freshLine state grounded, ?_, rests_zero line⟩
  rw [pieces, List.append_assoc]
  rfl

/-- Breaks that were due are followed by the indentation of the new line. -/
theorem leads_breaks {state : State} {due : Bool} {gap : List Piece}
    (begun : (state.lineStart || due) = true → ∃ level : Int, 0 ≤ level ∧ gap = [.indent level])
    (within : (state.lineStart || due) = false → gap = [] ∨ gap = [.space]) :
    state.Leads ((if due && !state.lineStart then [.newline] else []) ++ gap) := by
  cases start : state.lineStart with
  | true =>
    obtain ⟨level, grounded, rfl⟩ := begun (by rw [start]; rfl)
    rw [Bool.not_true, Bool.and_false]
    exact Leads.indent start grounded
  | false =>
    cases due with
    | true =>
      obtain ⟨level, grounded, rfl⟩ := begun (by rw [start]; rfl)
      exact Leads.line (Or.inl start) grounded
    | false =>
      rcases within (by rw [start]; rfl) with rfl | rfl
      · exact Leads.none
      · exact Leads.space start

/-- An item is not indented before the margin. -/
theorem contentLevel_nonneg {state : State} (grounded : 0 ≤ state.indentLevel) :
    0 ≤ state.indentLevel + state.contentLevel := by
  have := state.contentLevel_cases
  omega

/-- Neither is a comment. -/
theorem commentLevel_nonneg {state : State} (grounded : 0 ≤ state.indentLevel)
    (following : List Token) : 0 ≤ state.indentLevel + state.commentLevel following := by
  have beyond : 0 ≤ state.commentLevel following := by
    have := state.contentLevel_cases
    unfold commentLevel
    split
    · omega
    · split_ifs <;> omega
  omega

/-- An ordinary token is indented at the start of a line. -/
theorem lead_begun {state : State} (grounded : 0 ≤ state.indentLevel)
    (begun : state.lineStart = true) : ∃ level : Int, 0 ≤ level ∧ state.lead = [.indent level] :=
  ⟨_, contentLevel_nonneg grounded, if_pos begun⟩

/-- Within a line an ordinary token stands behind a space at most. -/
theorem lead_inside {state : State} (within : state.lineStart = false) :
    state.lead = [] ∨ state.lead = [.space] := by
  unfold lead
  rw [if_neg (by simp [within])]
  split
  · exact Or.inl rfl
  · exact Or.inr rfl

section Grounded

variable {state : State} (grounded : state.frame.Grounded)

include grounded

/-- A comment has its line to itself, with a blank line before it where it starts a paragraph. -/
theorem comment_spaced (token : Token) (following : List Token) :
    state.Spaced token (state.comment token following) := by
  have level := commentLevel_nonneg grounded.level following
  have pieces : (state.comment token following).2 =
      ((if state.lineStart then [] else [.newline]) ++
        ((if state.statementStart || state.groupsComment then [] else [.newline]) ++
          [.indent (state.indentLevel + state.commentLevel following)])) ++
        .word token :: List.replicate 1 .newline := by
    rw [comment_eq, freshLine_eq]
    simp
  refine ⟨_, 1, ?_, pieces, rests_one (by rw [comment_eq])⟩
  by_cases grouped : (state.statementStart || state.groupsComment) = true
  · rw [if_pos grouped]
    cases start : state.lineStart with
    | true => exact Leads.indent start level
    | false => exact Leads.line (Or.inl start) level
  · rw [if_neg grouped]
    rw [Bool.or_eq_true, not_or, Bool.not_eq_true] at grouped
    cases start : state.lineStart with
    | true => exact Leads.line (Or.inr grouped.1) level
    | false => exact Leads.blankLine start level

/-- An opening parenthesis is spaced. -/
theorem openParen_spaced (token : Token) (following : List Token) :
    state.Spaced token (state.openParen token following) := by
  obtain ⟨kind, classified⟩ : ∃ kind, state.classify following = kind := ⟨_, rfl⟩
  obtain ⟨begun, starts⟩ : ∃ begun,
      (state.lineStart || state.awaitsFirstItem || state.afterBlock) = begun := ⟨_, rfl⟩
  obtain ⟨column, placed⟩ : ∃ column,
      state.indentLevel + (if begun then state.contentLevel else 0) = column := ⟨_, rfl⟩
  have leads : state.Leads
      ((if (state.awaitsFirstItem || state.afterBlock) && !state.lineStart then [.newline] else []) ++
        if begun then [.indent column] else state.parenGap kind) := by
    refine leads_breaks (fun due => ?_) fun within => ?_
    · obtain rfl : true = begun := by rw [← starts, Bool.or_assoc, due]
      rw [← placed, if_pos rfl]
      exact ⟨_, contentLevel_nonneg grounded.level, rfl⟩
    · obtain rfl : false = begun := by rw [← starts, Bool.or_assoc, within]
      exact state.parenGap_isGap kind
  rw [openParen_eq state token classified starts placed]
  cases multiline : kind.isMultiline with
  | true => exact ⟨_, 1, leads, rfl, rests_one rfl⟩
  | false => exact ⟨_, 0, leads, rfl, rests_zero rfl⟩

/-- A closing parenthesis is spaced. -/
theorem closeParen_spaced (token : Token) : state.Spaced token (state.closeParen token) := by
  cases state.closeParen_closing token with
  | multiline innermost lines same =>
    rename_i construct outer
    have inside : construct ∈ state.frame.constructs := by
      rw [frame, innermost]
      exact List.mem_cons_self
    have level : 0 ≤ construct.columnLevel := by
      have base := grounded.outer construct inside
      have near := grounded.column construct inside
      omega
    rw [same]
    exact spaced_freshLine level rfl rfl
  | inline noLines same =>
    rw [same]
    cases start : state.lineStart with
    | false => exact ⟨[], 0, Leads.none, rfl, rests_zero rfl⟩
    | true =>
      exact ⟨[.indent state.indentLevel], 0, Leads.indent start grounded.level, rfl, rests_zero rfl⟩

/-- A comma is spaced. -/
theorem comma_spaced (commas : CommaPosition) (token : Token) :
    state.Spaced token (comma commas state token) := by
  cases state.comma_separates commas token with
  | inline inside same =>
    rw [same]
    exact ⟨[], 0, Leads.none, rfl, rests_zero rfl⟩
  | trailing outside position same =>
    rw [same]
    exact ⟨[], 1, Leads.none, rfl, rests_one rfl⟩
  | leading outside position same =>
    rw [same]
    exact spaced_freshLine grounded.level rfl rfl

/-- A token without a layout of its own is spaced. -/
theorem ordinary_spaced (token : Token) : state.Spaced token (state.ordinary token) := by
  cases glued : state.gluesToDot with
  | true =>
    rw [ordinary_glued glued]
    exact ⟨[], 0, Leads.none, rfl, rests_zero rfl⟩
  | false =>
    rw [ordinary_apart glued rfl]
    refine ⟨_, 0, leads_breaks (fun begun => ?_) fun within => ?_, rfl, rests_zero rfl⟩
    · exact lead_begun (by exact grounded.level) begun
    · exact lead_inside within

/-- Verbatim text is spaced. -/
theorem verbatim_spaced (token : Token) : state.Spaced token (state.verbatim token) := by
  cases glued : state.gluesToDot with
  | true =>
    rw [verbatim_glued glued]
    exact ⟨[], 0, Leads.none, rfl, rests_zero rfl⟩
  | false =>
    rw [verbatim_apart glued]
    refine ⟨_, 0, leads_breaks (fun begun => ?_) fun within => ?_, rfl, rests_zero rfl⟩
    · rw [if_neg (by simp [begun])]
      exact lead_begun (by exact grounded.level) begun
    · split
      · exact Or.inl rfl
      · exact lead_inside within

/-- A keyword is spaced. -/
theorem keyword_spaced (token : Token) (following : List Token) :
    state.Spaced token (state.keyword token following) := by
  have level := grounded.level
  cases state.keyword_worded token following with
  | openCase opens same =>
    rw [same, openCase_eq]
    exact spaced_freshLine (contentLevel_nonneg level) rfl rfl
  | branch value within same =>
    rw [same, keywordLine_eq]
    exact spaced_freshLine (Int.add_nonneg level (by decide)) rfl rfl
  | closeCase closes innermost same =>
    rw [same, closeCase_eq]
    exact spaced_freshLine level rfl rfl
  | clause notCase noEnd same =>
    rw [same, clause_eq]
    refine spaced_freshLine (Int.add_nonneg level ?_) rfl rfl
    split <;> decide
  | item notCase noEnd same =>
    rw [same]
    exact ordinary_spaced grounded token

/-- Every token is spaced. -/
theorem place_spaced (commas : CommaPosition) (token : Token) (following : List Token) :
    state.Spaced token (state.place commas token following) := by
  cases state.place_handled commas token following with
  | comment kind same =>
    rw [same]
    exact comment_spaced grounded token following
  | semicolon kind same =>
    rw [same]
    exact ⟨[], 2, Leads.none, rfl, rfl, Nat.le_refl 2, fun _ => rfl⟩
  | openParen kind same =>
    rw [same]
    exact openParen_spaced grounded token following
  | closeParen kind same =>
    rw [same]
    exact closeParen_spaced grounded token
  | comma kind same =>
    rw [same]
    exact comma_spaced grounded commas token
  | dot kind same =>
    rw [same]
    exact ⟨[], 0, Leads.none, rfl, rests_zero rfl⟩
  | keyword kind same =>
    have told : (state.note token).frame.Grounded := (state.note_frame token).symm ▸ grounded
    obtain ⟨before, breaks, leads, pieces, rests⟩ := keyword_spaced told token following
    have alike := leads.congr (state.note_same token).1.symm (state.note_statementStart token).symm
    rw [same]
    exact ⟨before, breaks, alike, pieces, rests⟩
  | verbatim kind same =>
    rw [same]
    exact verbatim_spaced grounded token
  | ordinary kind same =>
    rw [same]
    exact ordinary_spaced grounded token

/-- A step writes its token with a part of a gap before it. -/
theorem step_spaced (commas : CommaPosition) (token : Token) (following : List Token) :
    state.Spaced token (state.step commas token following) :=
  (place_spaced grounded commas token following).congr rfl rfl rfl

end Grounded

/-! ## Between two tokens -/

/-- The breaks behind a token and the pieces before the next one are a gap. -/
theorem Rests.complete {state : State} {breaks : Nat} (rests : state.Rests breaks)
    {before : List Piece} (leads : state.Leads before) :
    ∃ gap : Gap, ∀ options : Options,
      writtenText options (List.replicate breaks .newline ++ before) =
        gap.text options.indentSize := by
  obtain ⟨line, most, blank⟩ := rests
  have inLine (within : state.lineStart = false) : breaks = 0 := by
    rw [within] at line
    have := of_decide_eq_false line.symm
    omega
  have margin (size : Int) : indentation size 0 = [] := by
    rw [indentation, Int.mul_zero]
    rfl
  cases leads with
  | none =>
    obtain rfl | rfl | rfl : breaks = 0 ∨ breaks = 1 ∨ breaks = 2 := by omega
    · exact ⟨.none, fun _ => rfl⟩
    · exact ⟨.line 0, fun options => congrArg ('\n' :: ·) (margin _).symm⟩
    · exact ⟨.blankLine 0, fun options => congrArg ('\n' :: '\n' :: ·) (margin _).symm⟩
  | space within =>
    obtain rfl := inLine within
    exact ⟨.space, fun _ => rfl⟩
  | indent begun grounded =>
    rename_i level
    lift level to Nat using grounded
    have some : 0 < breaks := of_decide_eq_true (line.symm.trans begun)
    obtain rfl | rfl : breaks = 1 ∨ breaks = 2 := by omega
    · exact ⟨.line level, fun options => by simp [writtenText, Piece.text, Gap.text]⟩
    · exact ⟨.blankLine level, fun options => by simp [writtenText, Piece.text, Gap.text]⟩
  | line free grounded =>
    rename_i level
    lift level to Nat using grounded
    have few : breaks ≠ 2 := by
      intro two
      rcases free with within | inside
      · rw [inLine within] at two
        cases two
      · rw [blank two] at inside
        cases inside
    obtain rfl | rfl : breaks = 0 ∨ breaks = 1 := by omega
    · exact ⟨.line level, fun options => by simp [writtenText, Piece.text, Gap.text]⟩
    · exact ⟨.blankLine level, fun options => by simp [writtenText, Piece.text, Gap.text]⟩
  | blankLine within grounded =>
    rename_i level
    lift level to Nat using grounded
    obtain rfl := inLine within
    exact ⟨.blankLine level, fun options => by simp [writtenText, Piece.text, Gap.text]⟩

end State

/-! ## A whole run -/

/-- Tokens with a gap behind each, as they are written. -/
def spacedText (options : Options) (tokens : List Token) (gaps : List Gap) : List Char :=
  (List.zipWith (fun token gap =>
    (token.shown options.keywordCase).toList ++ gap.text options.indentSize) tokens gaps).flatten

/-- The pieces of a token that is written come before those of the tokens behind it. -/
theorem piecesFrom_cons (commas : CommaPosition) (state : State) {token : Token}
    (visible : token.isLayout = false) (going : token.kind ≠ .eof) (rest : List Token) :
    piecesFrom commas state (token :: rest) =
      (state.step commas token rest).2 ++
        piecesFrom commas (state.step commas token rest).1 rest := by
  rw [piecesFrom, courseFrom, if_neg (by simp [visible]), if_neg going]
  rfl

/-- The text of a token follows the spacing before it, and a gap the text. -/
theorem writtenText_token (options : Options) (before : List Piece) (token : Token)
    {behind : List Piece} {tokens : List Token} {gap : Gap} {gaps : List Gap}
    (text : writtenText options behind =
      gap.text options.indentSize ++ spacedText options tokens gaps) :
    writtenText options (before ++ .word token :: behind) =
      writtenText options before ++ spacedText options (token :: tokens) (gap :: gaps) := by
  rw [writtenText_append, writtenText_word, text, spacedText, spacedText, List.zipWith_cons_cons,
    List.flatten_cons, List.append_assoc _ (gap.text _)]

/-- From any state, gaps stand before, between and behind the tokens that are written. -/
theorem text_between (commas : CommaPosition) {state : State} {breaks : Nat}
    (rests : state.Rests breaks) (grounded : state.frame.Grounded) (tokens : List Token) :
    ∃ (gap : Gap) (gaps : List Gap), gaps.length = (written tokens).length ∧
      ∀ options : Options,
        writtenText options (List.replicate breaks .newline ++ piecesFrom commas state tokens) =
          gap.text options.indentSize ++ spacedText options (written tokens) gaps := by
  induction tokens generalizing state breaks with
  | nil =>
    obtain ⟨gap, text⟩ := rests.complete State.Leads.none
    exact ⟨gap, [], rfl, fun options => (text options).trans (List.append_nil _).symm⟩
  | cons token rest ih =>
    cases layout : token.isLayout with
    | true =>
      rw [written_cons_layout layout, piecesFrom, courseFrom, if_pos layout]
      exact ih rests grounded
    | false =>
      by_cases ended : token.kind = .eof
      · obtain ⟨gap, text⟩ := rests.complete State.Leads.none
        rw [written_cons_eof ended, piecesFrom, courseFrom, if_neg (by simp [layout]), if_pos ended]
        exact ⟨gap, [], rfl, fun options => (text options).trans (List.append_nil _).symm⟩
      · obtain ⟨before, after, leads, pieces, next⟩ :=
          State.step_spaced grounded commas token rest
        obtain ⟨gap, text⟩ := rests.complete leads
        obtain ⟨second, gaps, count, others⟩ :=
          ih next ((state.step_shifts commas token rest).grounded grounded)
        rw [written_cons layout ended, piecesFrom_cons commas state layout ended, pieces,
          List.append_assoc, ← List.append_assoc _ before, List.cons_append]
        refine ⟨gap, second :: gaps, congrArg (· + 1) count, fun options => ?_⟩
        rw [writtenText_token options _ token (others options), text]

/-- A layout starts with indentation only, and has a gap behind every token that is written. -/
theorem text_pieces (commas : CommaPosition) (tokens : List Token) :
    ∃ (margin : Nat) (gaps : List Gap), gaps.length = (written tokens).length ∧
      ∀ options : Options,
        writtenText options (pieces commas tokens) =
          indentation options.indentSize margin ++ spacedText options (written tokens) gaps := by
  have nothing (options : Options) : writtenText options [] =
      indentation options.indentSize (0 : Nat) ++ spacedText options [] [] := by
    rw [indentation, Int.ofNat_zero, Int.mul_zero]
    rfl
  rw [pieces]
  induction tokens with
  | nil => exact ⟨0, [], rfl, nothing⟩
  | cons token rest ih =>
    cases layout : token.isLayout with
    | true =>
      rw [written_cons_layout layout, piecesFrom, courseFrom, if_pos layout]
      exact ih
    | false =>
      by_cases ended : token.kind = .eof
      · rw [written_cons_eof ended, piecesFrom, courseFrom, if_neg (by simp [layout]), if_pos ended]
        exact ⟨0, [], rfl, nothing⟩
      · obtain ⟨before, after, leads, pieces, next⟩ :=
          State.step_spaced grounded_initial commas token rest
        obtain ⟨gap, gaps, count, others⟩ := text_between commas next
          ((State.step_shifts commas {} token rest).grounded grounded_initial) rest
        have margin : ∃ level : Nat, ∀ options : Options,
            writtenText options before = indentation options.indentSize level := by
          cases leads with
          | none => exact ⟨0, fun options => (nothing options).trans (List.append_nil _)⟩
          | space within => cases within
          | indent begun grounded =>
            rename_i level
            lift level to Nat using grounded
            exact ⟨level, fun options => List.append_nil _⟩
          | line free grounded => rcases free with within | inside <;> contradiction
          | blankLine within grounded => cases within
        obtain ⟨level, text⟩ := margin
        rw [written_cons layout ended, piecesFrom_cons commas {} layout ended, pieces,
          List.append_assoc, List.cons_append]
        refine ⟨level, gap :: gaps, congrArg (· + 1) count, fun options => ?_⟩
        rw [writtenText_token options before token (others options), text]

/-- The shape of a layout. What is written for a source is indentation, then every token that is
neither layout nor the end, in order and as its letter case shows it, each with a gap behind it. The
margin and the gaps are the same for every letter case and for every width of a level. -/
theorem layout_shape (commas : CommaPosition) (source : String) :
    ∃ (margin : Nat) (gaps : List Gap),
      gaps.length = ((fuse (tokenize source)).filter fun token =>
        !token.isLayout && token.kind != .eof).length ∧
      ∀ (size : Int) (keywordCase : KeywordCase),
        writtenText ⟨size, keywordCase, commas⟩ (pieces commas (fuse (tokenize source))) =
          indentation size margin ++ spacedText ⟨size, keywordCase, commas⟩
            ((fuse (tokenize source)).filter fun token => !token.isLayout && token.kind != .eof)
            gaps := by
  obtain ⟨margin, gaps, count, text⟩ := text_pieces commas (fuse (tokenize source))
  rw [(fuse_tokenize source).2.2.filter_eq]
  exact ⟨margin, gaps, count, fun size keywordCase => text ⟨size, keywordCase, commas⟩⟩

end SqlLayout
