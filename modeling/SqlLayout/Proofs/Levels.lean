import SqlLayout.Proofs.Placement

/-!
# Levels of indentation

The indentation level, the open parentheses and the open CASE expressions of a state belong together:
a token opens one of them, closes one of them, ends the statement, or leaves them all alone
(`State.step_shifts`). Levels that count from the margin therefore never fall below it
(`Shifts.grounded`).
-/

namespace SqlLayout

/-- The levels that a state keeps. -/
structure Frame where
  /-- The indentation level of clauses. -/
  level : Int
  /-- The open parentheses, innermost first. -/
  constructs : List Construct
  /-- The levels that hold again behind the open CASE expressions, innermost first. -/
  caseLevels : List Int
deriving DecidableEq

namespace State

/-- The levels of a state. -/
def frame (state : State) : Frame :=
  ⟨state.indentLevel, state.constructs, state.caseLevels⟩

end State

/-- What a token does to levels. -/
inductive Shifts (token : Token) (frame : Frame) : Frame → Prop
  /-- A parenthesis is opened at the level of its line, or one level beyond it. -/
  | openParen (opens : token.kind = .lparen) (kind : ConstructKind) {column : Int}
    (near : column = frame.level ∨ column = frame.level + 1) :
    Shifts token frame
      ⟨if kind.isMultiline then column + 1 else frame.level,
        ⟨kind, frame.level, column⟩ :: frame.constructs, frame.caseLevels⟩
  /-- The innermost parenthesis is closed. -/
  | closeParen (closes : token.kind = .rparen) {construct : Construct} {outer : List Construct}
    (innermost : frame.constructs = construct :: outer) :
    Shifts token frame
      ⟨if construct.kind.isMultiline then construct.outerLevel else frame.level, outer,
        frame.caseLevels⟩
  /-- A CASE is opened at the level of its line. -/
  | openCase (opens : token.isKeyword "CASE" = true) {level : Int}
    (near : level = frame.level ∨ level = frame.level + 1) :
    Shifts token frame ⟨level, frame.constructs, frame.level :: frame.caseLevels⟩
  /-- The innermost CASE is closed. -/
  | closeCase (closes : token.isKeyword "END" = true) {level : Int} {outer : List Int}
    (innermost : frame.caseLevels = level :: outer) :
    Shifts token frame ⟨level, frame.constructs, outer⟩
  /-- A statement ends at the margin. -/
  | statement (ends : token.kind = .semicolon) : Shifts token frame ⟨0, [], []⟩
  /-- Any other token, and one that closes what is not open, leaves the levels alone. -/
  | stays (opensNone : token.kind ≠ .lparen ∧ token.isKeyword "CASE" = false)
    (closesNone : (token.kind = .rparen → frame.constructs = []) ∧
      (token.isKeyword "END" = true → frame.caseLevels = []))
    (goesOn : token.kind ≠ .semicolon) : Shifts token frame frame

/-! ## One token -/

namespace State

/-- An item is at the level of the clauses around it, or one level beyond them. -/
theorem contentLevel_cases (state : State) : state.contentLevel = 0 ∨ state.contentLevel = 1 := by
  unfold contentLevel
  split
  · exact Or.inl rfl
  · exact Or.inr rfl

/-- What a keyword says about a statement does not change the levels. -/
theorem note_frame (state : State) (token : Token) : (state.note token).frame = state.frame := by
  obtain ⟨inDefinition, awaitsColumns, inFunction, noted⟩ := state.note_eq token
  rw [noted]
  rfl

/-- A token without a layout of its own leaves the levels alone. -/
theorem ordinary_frame (state : State) (token : Token) :
    (state.ordinary token).1.frame = state.frame := by
  cases glued : state.gluesToDot with
  | true =>
    rw [ordinary_glued glued]
    rfl
  | false =>
    rw [ordinary_apart glued rfl]
    rfl

/-- Verbatim text leaves the levels alone. -/
theorem verbatim_frame (state : State) (token : Token) :
    (state.verbatim token).1.frame = state.frame := by
  cases glued : state.gluesToDot with
  | true =>
    rw [verbatim_glued glued]
    rfl
  | false =>
    rw [verbatim_apart glued]
    rfl

/-- A comma leaves the levels alone. -/
theorem comma_frame (commas : CommaPosition) (state : State) (token : Token) :
    (comma commas state token).1.frame = state.frame := by
  rcases state.comma_separates commas token with ⟨-, same⟩ | ⟨-, -, same⟩ | ⟨-, -, same⟩ <;>
    rw [same] <;> rfl

/-- An opening parenthesis is one more that is open. -/
theorem openParen_shifts (state : State) {token : Token} (opens : token.kind = .lparen)
    (following : List Token) :
    Shifts token state.frame (state.openParen token following).1.frame := by
  obtain ⟨begun, starts⟩ : ∃ begun,
      (state.lineStart || state.awaitsFirstItem || state.afterBlock) = begun := ⟨_, rfl⟩
  have near : state.indentLevel + (if begun then state.contentLevel else 0) = state.frame.level ∨
      state.indentLevel + (if begun then state.contentLevel else 0) = state.frame.level + 1 := by
    have levels := state.contentLevel_cases
    rw [frame]
    dsimp only
    split <;> omega
  rw [openParen_eq state token rfl starts rfl]
  exact Shifts.openParen opens (state.classify following) near

/-- A closing parenthesis closes the innermost one that is open. -/
theorem closeParen_shifts (state : State) {token : Token} (closes : token.kind = .rparen) :
    Shifts token state.frame (state.closeParen token).1.frame := by
  cases state.closeParen_closing token with
  | multiline innermost lines same =>
    have shifts : Shifts token state.frame _ := Shifts.closeParen closes innermost
    rw [if_pos lines] at shifts
    rw [same]
    exact shifts
  | inline noLines same =>
    rw [same]
    cases innermost : state.constructs with
    | nil =>
      have noKeyword (word : String) : token.isKeyword word = false :=
        Token.isKeyword_of_kind (by simp [closes]) word
      have kept : (⟨state.indentLevel, [], state.caseLevels⟩ : Frame) = state.frame := by
        rw [frame, innermost]
      dsimp only [frame, List.tail_nil]
      rw [kept]
      exact Shifts.stays ⟨by simp [closes], noKeyword _⟩
        ⟨fun _ => innermost, fun marked => by rw [noKeyword] at marked; cases marked⟩ (by simp [closes])
    | cons construct outer =>
      have shifts : Shifts token state.frame _ := Shifts.closeParen closes innermost
      rw [if_neg (by simp [noLines construct outer innermost])] at shifts
      exact shifts

/-- A keyword opens or closes a CASE, or leaves the levels alone. -/
theorem keyword_shifts (state : State) {token : Token} (word : token.kind = .keyword)
    (following : List Token) :
    Shifts token state.frame (state.keyword token following).1.frame := by
  have marked (value : String) : token.isKeyword value = (token.value == value) := by
    rw [Token.isKeyword, word]
    rfl
  have stays (notCase : token.value ≠ "CASE") (noEnd : token.value = "END" → state.caseLevels = []) :
      Shifts token state.frame state.frame := by
    refine Shifts.stays ⟨by simp [word], by simpa [marked] using notCase⟩
      ⟨by simp [word], fun ends => noEnd ?_⟩ (by simp [word])
    simpa [marked] using ends
  cases state.keyword_worded token following with
  | openCase opens same =>
    have near := state.contentLevel_cases
    rw [same, openCase_eq]
    exact Shifts.openCase (by rw [marked, opens]; rfl) (by dsimp only [frame]; omega)
  | branch value within same =>
    rw [same, keywordLine_eq]
    refine stays ?_ fun ends => ?_
    · rcases value with value | value <;> simp [value]
    · simp [ends] at value
  | closeCase closes innermost same =>
    rw [same, closeCase_eq]
    exact Shifts.closeCase (by rw [marked, closes]; rfl) innermost
  | clause notCase noEnd same =>
    rw [same, clause_eq]
    exact stays notCase noEnd
  | item notCase noEnd same =>
    rw [same, ordinary_frame]
    exact stays notCase noEnd

/-- Every token shifts the levels. -/
theorem place_shifts (commas : CommaPosition) (state : State) (token : Token)
    (following : List Token) :
    Shifts token state.frame (state.place commas token following).1.frame := by
  have stays (noParen : token.kind ≠ .lparen ∧ token.kind ≠ .rparen)
      (noKeyword : token.kind ≠ .keyword) (goesOn : token.kind ≠ .semicolon) :
      Shifts token state.frame state.frame := by
    have noWord (word : String) : token.isKeyword word = false :=
      Token.isKeyword_of_kind noKeyword word
    exact Shifts.stays ⟨noParen.1, noWord _⟩
      ⟨fun closes => absurd closes noParen.2, fun marked => by rw [noWord] at marked; cases marked⟩
      goesOn
  cases state.place_handled commas token following with
  | comment kind same =>
    have other {mark : Kind} (special : mark.isComment = false) : token.kind ≠ mark :=
      Token.kind_ne_of_isComment kind special
    rw [same, comment_eq]
    exact stays ⟨other rfl, other rfl⟩ (other rfl) (other rfl)
  | semicolon kind same =>
    rw [same]
    exact Shifts.statement kind
  | openParen kind same =>
    rw [same]
    exact openParen_shifts state kind following
  | closeParen kind same =>
    rw [same]
    exact closeParen_shifts state kind
  | comma kind same =>
    rw [same, comma_frame]
    exact stays (by simp [kind]) (by simp [kind]) (by simp [kind])
  | dot kind same =>
    rw [same]
    exact stays (by simp [kind]) (by simp [kind]) (by simp [kind])
  | keyword kind same =>
    rw [same, ← note_frame state token]
    exact keyword_shifts (state.note token) kind following
  | verbatim kind same =>
    rw [same, verbatim_frame]
    exact stays (by simp [kind]) (by simp [kind]) (by simp [kind])
  | ordinary kind same =>
    have other {mark : Kind} (special : mark.isOrdinary = false) : token.kind ≠ mark :=
      Kind.ne_of_isOrdinary kind special
    rw [same, ordinary_frame]
    exact stays ⟨other rfl, other rfl⟩ (other rfl) (other rfl)

/-- Remembering a token does not change the levels. -/
theorem step_shifts (commas : CommaPosition) (state : State) (token : Token)
    (following : List Token) :
    Shifts token state.frame (state.step commas token following).1.frame :=
  place_shifts commas state token following

end State

/-! ## Nothing is indented beyond the margin -/

/-- Whether levels count from the margin: none is negative, and a closing parenthesis on a line of its
own is at the level that holds again behind it, or one level beyond. -/
structure Frame.Grounded (frame : Frame) : Prop where
  /-- Clauses are not before the margin. -/
  level : 0 ≤ frame.level
  /-- Neither are they behind a closing parenthesis. -/
  outer : ∀ construct ∈ frame.constructs, 0 ≤ construct.outerLevel
  /-- A closing parenthesis is at the level around it, or one level beyond. -/
  column : ∀ construct ∈ frame.constructs, construct.columnLevel = construct.outerLevel ∨
    construct.columnLevel = construct.outerLevel + 1
  /-- Clauses are not before the margin behind an END. -/
  cases : ∀ level ∈ frame.caseLevels, 0 ≤ level

/-- A token keeps levels from the margin. -/
theorem Shifts.grounded {token : Token} {frame next : Frame} (shifts : Shifts token frame next)
    (grounded : frame.Grounded) : next.Grounded := by
  obtain ⟨level, outer, column, cases⟩ := grounded
  cases shifts with
  | openParen opens kind near =>
    rename_i place
    refine ⟨?_, List.forall_mem_cons.2 ⟨level, outer⟩, List.forall_mem_cons.2 ⟨near, column⟩, cases⟩
    dsimp only
    split <;> omega
  | closeParen closes innermost =>
    rw [innermost, List.forall_mem_cons] at outer column
    refine ⟨?_, outer.2, column.2, cases⟩
    dsimp only
    split
    · exact outer.1
    · exact level
  | openCase opens near =>
    refine ⟨?_, outer, column, List.forall_mem_cons.2 ⟨level, cases⟩⟩
    dsimp only
    omega
  | closeCase closes innermost =>
    rw [innermost, List.forall_mem_cons] at cases
    exact ⟨cases.1, outer, column, cases.2⟩
  | statement ends => exact ⟨Int.le_refl 0, nofun, nofun, nofun⟩
  | stays opensNone closesNone goesOn => exact ⟨level, outer, column, cases⟩

/-- The levels of a fresh state count from the margin. -/
theorem grounded_initial : ({} : State).frame.Grounded :=
  ⟨Int.le_refl 0, nofun, nofun, nofun⟩

end SqlLayout
