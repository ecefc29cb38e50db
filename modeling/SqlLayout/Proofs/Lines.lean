import SqlLayout.Proofs.Nesting
import SqlLayout.Proofs.Solid

/-!
# The lines of a layout

A token heads a line when nothing but indentation has been written on its line before it
(`HeadsLine`). The spacing before a token that breaks the line puts the token there, with as many
spaces as its level asks for (`Entry.Breaks.headsLine`). Trimming the text keeps the line of every
token that has something other than blanks before it (`HeadsLine.returnsLine`).
-/

namespace SqlLayout

open Text

/-! ## The last line of a text -/

/-- What stands behind the last line feed of a text. -/
def lastLine (text : List Char) : List Char :=
  text.rtakeWhile fun c => c != '\n'

/-- A text is a number of whole lines and its last line. -/
theorem append_lastLine (text : List Char) :
    text = lastLine text ∨ ∃ front, text = front ++ '\n' :: lastLine text := by
  induction text using List.reverseRecOn with
  | nil => exact Or.inl rfl
  | append_singleton text c ih =>
    by_cases ends : c = '\n'
    · right
      rw [lastLine, List.rtakeWhile_concat_neg _ _ _ (by simp [ends]), ends]
      exact ⟨text, rfl⟩
    · rw [lastLine, List.rtakeWhile_concat_pos _ _ _ (by simpa using ends), ← lastLine]
      rcases ih with whole | ⟨front, whole⟩
      · exact Or.inl (congrArg (· ++ [c]) whole)
      · right
        exact ⟨front, (congrArg (· ++ [c]) whole).trans (by simp)⟩

/-- Spaces at the end of a text stand on its last line. -/
theorem lastLine_append_spaces (text : List Char) (width : Nat) :
    lastLine (text ++ List.replicate width ' ') = lastLine text ++ List.replicate width ' ' := by
  induction width with
  | zero => simp
  | succ width ih =>
    rw [List.replicate_succ', ← List.append_assoc, ← List.append_assoc, ← ih]
    exact List.rtakeWhile_concat_pos _ _ _ (by decide)

/-- Nothing stands on the last line of a text that is empty or ends in a line feed. -/
theorem lastLine_eq_nil {text : List Char} (ended : text = [] ∨ text.getLast? = some '\n') :
    lastLine text = [] := by
  rcases ended with rfl | ended
  · rfl
  · obtain ⟨front, rfl⟩ := List.getLast?_eq_some_iff.1 ended
    exact List.rtakeWhile_concat_neg _ _ _ (by simp)

/-- Passing over the blanks at the front of a text leaves its indented last line alone, if they end
before it. -/
theorem lastLine_dropWhile {text : List Char} (ink : ¬ IsBlankText text) {width : Nat}
    (line : lastLine text = List.replicate width ' ') :
    lastLine (text.dropWhile isBlank) = List.replicate width ' ' := by
  have spaces : IsBlankText (List.replicate width ' ') := by
    intro c member
    rw [List.eq_of_mem_replicate member]
    decide
  rcases append_lastLine text with whole | ⟨front, whole⟩
  · rw [whole, line] at ink
    exact absurd spaces ink
  · rw [line, List.append_cons] at whole
    have begins : front.dropWhile isBlank ≠ [] := by
      intro none
      apply ink
      rw [whole]
      intro c member
      simp only [List.mem_append, List.mem_singleton] at member
      rcases member with (before | rfl) | behind
      · exact List.dropWhile_eq_nil_iff.1 none c before
      · decide
      · exact spaces c behind
    have cut : text.dropWhile isBlank =
        (front.dropWhile isBlank ++ ['\n']) ++ List.replicate width ' ' := by
      rw [whole, List.append_assoc, List.dropWhile_append, if_neg (by simpa using begins),
        List.append_assoc]
    rw [cut, lastLine_append_spaces, lastLine_eq_nil (Or.inr List.getLast?_concat), List.nil_append]

/-! ## Tokens at the start of a line -/

/-- The spacing that was written before the token of an entry. -/
def Entry.gap (entry : Entry) : List Piece :=
  entry.pieces.takeWhile Piece.isGap

/-- The text that is written before the token of an entry, which stands behind others. -/
def textBefore (options : Options) (past : List Entry) (entry : Entry) : List Char :=
  writtenText options (past.flatMap Entry.pieces ++ entry.gap)

/-- Whether the token of an entry is the first thing that is written on its line, behind the given
number of spaces. -/
def HeadsLine (options : Options) (past : List Entry) (entry : Entry) (width : Nat) : Prop :=
  lastLine (textBefore options past entry) = List.replicate width ' '

/-- The text that is returned before the token of an entry: the blanks at the front are trimmed. -/
def returnedBefore (options : Options) (past : List Entry) (entry : Entry) : List Char :=
  (textBefore options past entry).dropWhile isBlank

/-- Whether the token of an entry is the first thing on its line of the formatted text, behind the
given number of spaces. -/
structure ReturnsLine (options : Options) (tokens : List Token) (past : List Entry) (entry : Entry)
    (width : Nat) : Prop where
  /-- The token stands in the formatted text. -/
  stands : returnedBefore options past entry ++ (entry.token.shown options.keywordCase).toList <+:
    (render options tokens).toList
  /-- Only the indentation stands on its line before it. -/
  line : lastLine (returnedBefore options past entry) = List.replicate width ' '

/-- The token of an entry stands between the spacing before it and line breaks. -/
theorem Entry.Leaves.pieces_eq {commas : CommaPosition} {state : State} {entry : Entry}
    (leaves : entry.Leaves commas state) :
    ∃ breaks, entry.pieces = entry.gap ++ .word entry.token :: List.replicate breaks .newline := by
  obtain ⟨following, same, -⟩ := leaves.place
  obtain ⟨before, breaks, opens, pieces, -⟩ := state.place_places commas entry.token following
  rw [← same] at pieces
  have gap : entry.gap = before := by
    rw [gap, pieces]
    exact State.takeWhile_isGap opens.blank entry.token _
  exact ⟨breaks, by rw [gap]; exact pieces⟩

/-- Whether the spacing before the token of an entry starts a line at a level. -/
def Entry.Breaks (state : State) (entry : Entry) (level : Int) : Prop :=
  entry.gap = state.freshLine.2 ++ [.indent level]

/-- Indentation behind a fresh line starts a line, also if the state was told more before. -/
theorem Entry.breaks_of_pieces {state told : State} {entry : Entry}
    (same : told.lineStart = state.lineStart) {level : Int} {behind : List Piece}
    (pieces : entry.pieces = told.freshLine.2 ++ .indent level :: .word entry.token :: behind) :
    entry.Breaks state level := by
  have breaks : told.freshLine.2 = state.freshLine.2 := by
    rw [State.freshLine_eq, State.freshLine_eq, same]
  have blank : ∀ piece ∈ state.freshLine.2 ++ [.indent level], piece.isGap = true := by
    rw [State.freshLine_eq]
    cases state.lineStart <;> simp [Piece.isGap]
  rw [Breaks, gap, pieces, breaks, List.append_cons]
  exact State.takeWhile_isGap blank entry.token behind

/-- A fresh line is the first one, or follows a line feed. -/
theorem Walk.ended_freshLine {commas : CommaPosition} {past : List Entry}
    (walk : Walk commas {} past) (options : Options) :
    writtenText options (past.flatMap Entry.pieces ++ (({} : State).after past).freshLine.2) = [] ∨
      (writtenText options
        (past.flatMap Entry.pieces ++ (({} : State).after past).freshLine.2)).getLast? =
        some '\n' := by
  have line := (walk.consistent options).line
  rw [State.freshLine_eq]
  cases start : (({} : State).after past).lineStart with
  | true => simpa using line start
  | false =>
    right
    rw [writtenText_append]
    exact List.getLast?_concat

/-- A token behind the indentation of a line that has just begun heads the line. -/
theorem Entry.headsLine_of_gap {options : Options} {past : List Entry} {entry : Entry}
    {breaks : List Piece} {level : Int} (spaced : entry.gap = breaks ++ [.indent level])
    (ended : writtenText options (past.flatMap Entry.pieces ++ breaks) = [] ∨
      (writtenText options (past.flatMap Entry.pieces ++ breaks)).getLast? = some '\n') :
    HeadsLine options past entry (options.indentSize * level).toNat := by
  have spaces : writtenText options [.indent level] =
      List.replicate (options.indentSize * level).toNat ' ' := by
    simp [writtenText, Piece.text, indentation]
  rw [HeadsLine, textBefore, spaced, ← List.append_assoc, writtenText_append, spaces,
    lastLine_append_spaces, lastLine_eq_nil ended, List.nil_append]

/-- A token whose spacing starts a line heads it. -/
theorem Entry.Breaks.headsLine {commas : CommaPosition} {past : List Entry} {entry : Entry}
    {level : Int} (breaks : entry.Breaks (({} : State).after past) level)
    (walk : Walk commas {} past) (options : Options) :
    HeadsLine options past entry (options.indentSize * level).toNat :=
  Entry.headsLine_of_gap breaks (walk.ended_freshLine options)

/-! ## Tokens in the formatted text -/

/-- The text of a course is the text before a token, the token, and the text behind it. -/
theorem writtenText_split {commas : CommaPosition} {state : State} {entry : Entry}
    (leaves : entry.Leaves commas state) (options : Options) (past later : List Entry) :
    ∃ behind, writtenText options ((past ++ entry :: later).flatMap Entry.pieces) =
      textBefore options past entry ++ (entry.token.shown options.keywordCase).toList ++ behind := by
  obtain ⟨breaks, pieces⟩ := leaves.pieces_eq
  refine ⟨writtenText options
    (List.replicate breaks .newline ++ later.flatMap Entry.pieces), ?_⟩
  have split : (past ++ entry :: later).flatMap Entry.pieces =
      (past.flatMap Entry.pieces ++ entry.gap) ++ .word entry.token ::
        (List.replicate breaks .newline ++ later.flatMap Entry.pieces) := by
    rw [List.flatMap_append, List.flatMap_cons, pieces]
    simp only [List.append_assoc, List.cons_append]
  rw [split, writtenText_append, writtenText_word, List.append_assoc]
  rfl

/-- Behind a token that is written as a solid text, the text before other tokens is not blank. -/
theorem not_isBlankText_textBefore {commas : CommaPosition} {state : State} {entry : Entry}
    (leaves : entry.Leaves commas state) {options : Options}
    (solid : Solid (entry.token.shown options.keywordCase).toList) (past later : List Entry)
    (next : Entry) :
    ¬ IsBlankText (textBefore options (past ++ entry :: later) next) := by
  intro blank
  obtain ⟨behind, text⟩ := writtenText_split leaves options past later
  apply solid.not_isBlankText
  intro c member
  apply blank
  rw [textBefore, writtenText_append, text]
  simp [member]

/-- A token that heads a line that is written heads a line of the formatted text, unless its
indentation is trimmed. -/
theorem HeadsLine.returnsLine {options : Options} {tokens : List Token} {past later : List Entry}
    {entry : Entry} (split : course options.commaPosition tokens = past ++ entry :: later)
    (solid : Solid (entry.token.shown options.keywordCase).toList) {width : Nat}
    (heads : HeadsLine options past entry width)
    (kept : width = 0 ∨ ¬ IsBlankText (textBefore options past entry)) :
    ReturnsLine options tokens past entry width where
  stands := by
    obtain ⟨-, leaves, -⟩ := walk_split split
    obtain ⟨behind, text⟩ := writtenText_split leaves options past later
    have around := solid.around (textBefore options past entry) behind
    have whole : (render options tokens).toList =
        trim (textBefore options past entry ++ (entry.token.shown options.keywordCase).toList ++
          behind) ++ ['\n'] := by
      rw [render, finished, String.toList_ofList, pieces, piecesFrom, ← course, split, text]
    rw [whole, returnedBefore]
    exact around.trans (List.prefix_append _ _)
  line := by
    by_cases blank : IsBlankText (textBefore options past entry)
    · have margin : width = 0 := kept.resolve_right fun ink => ink blank
      rw [returnedBefore, List.dropWhile_eq_nil_iff.2 blank, margin]
      rfl
    · exact lastLine_dropWhile blank heads

/-! ## Widths -/

/-- One level more is one width more. -/
theorem width_succ (size : Int) {level : Int} (grounded : 0 ≤ level) :
    (size * (level + 1)).toNat = (size * level).toNat + size.toNat := by
  rw [Int.mul_add, Int.mul_one]
  by_cases positive : 0 ≤ size
  · exact Int.toNat_add (Int.mul_nonneg positive grounded) positive
  · have margin : size * level ≤ 0 := Int.mul_nonpos_of_nonpos_of_nonneg (by omega) grounded
    omega

/-- Widths grow with the levels. -/
theorem width_add {size level overhang : Int} (positive : 1 ≤ size) (grounded : 0 ≤ level)
    (indented : 0 ≤ level + overhang) :
    ((size * (level + overhang)).toNat : Int) = (size * level).toNat + size * overhang ∧
      ((size * (level + overhang)).toNat = (size * level).toNat ↔ overhang = 0) := by
  have line : ((size * (level + overhang)).toNat : Int) = size * (level + overhang) :=
    Int.toNat_of_nonneg (Int.mul_nonneg (by omega) indented)
  have base : ((size * level).toNat : Int) = size * level :=
    Int.toNat_of_nonneg (Int.mul_nonneg (by omega) grounded)
  rw [Int.mul_add] at line
  refine ⟨by rw [Int.mul_add]; omega, ?_⟩
  constructor
  · intro same
    have none : size * overhang = 0 := by
      rw [Int.mul_add] at same
      omega
    have nonzero : size ≠ 0 := by omega
    exact (Int.mul_eq_zero.1 none).resolve_left nonzero
  · intro none
    rw [none, Int.add_zero]

end SqlLayout
