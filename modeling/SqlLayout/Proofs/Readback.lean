import Mathlib.Data.List.Chain
import SqlLayout.Proofs.Ungrouping

/-!
# Reading a layout back

The text of a layout is cut where the layout put its pieces together, as long as every token is
settled before the character that may follow it (`Linked`). The text is read word by word from its
front (`peel`); only the last word that is not blank is trimmed (`peel_last`), and what is behind it
is gone (`peel_blank`).
-/

namespace SqlLayout

open Text State

/-- The text of a token as it is written. -/
def Token.display (options : Options) (token : Token) : List Char :=
  (token.shown options.keywordCase).toList

/-- Whether the text of a token starts with a character other than a space or a tab. -/
def Token.Shows (options : Options) (token : Token) : Prop :=
  ∃ c rest, token.display options = c :: rest ∧ isGap c = false

/-- Whether a layout may write a character right behind a token, given the next token. -/
def Follows (options : Options) (token next : Token) (d : Char) : Prop :=
  d = '\n' ∨ (token.isComment = false ∧
    (d = ' ' ∨ (token.Abuts next ∧ (next.display options).head? = some d)))

/-- Whether a token is settled before every character that may follow it. -/
def Linked (options : Options) (token next : Token) : Prop :=
  ∀ d, Follows options token next d → Settled (token.display options) d

/-- The text with which a formatted text ends when the given pieces are its last. -/
def ended (options : Options) (pieces : List Piece) : List Char :=
  trimEnd (writtenText options pieces) ++ ['\n']

/-! ## What follows a token -/

/-- Spacing is written as spaces and line feeds. -/
theorem spacing_writtenText (options : Options) {gap : List Piece}
    (blank : ∀ piece ∈ gap, piece.isGap = true) :
    ∀ c ∈ writtenText options gap, c = ' ' ∨ c = '\n' := by
  intro c member
  obtain ⟨piece, inside, written⟩ := List.mem_flatMap.1 member
  have isGap := blank piece inside
  cases piece with
  | word token => cases isGap
  | newline => exact Or.inr (List.mem_singleton.1 written)
  | space => exact Or.inl (List.mem_singleton.1 written)
  | indent level => exact Or.inl (List.eq_of_mem_replicate written)

/-- The first character behind a token is one that may follow it. -/
theorem follows_of_spread {options : Options} {token next : Token} {earlier others : List Token}
    {pieces : List Piece} (shows : next.Shows options)
    (spread : Spread (token :: earlier) (next :: others) pieces) :
    ∃ d, (writtenText options pieces).head? = some d ∧ Follows options token next d := by
  cases spread with
  | word parted spread =>
    rename_i gap rest
    rcases parted.apart token rfl with newline | ⟨noComment, space | ⟨rfl, abuts⟩⟩
    · refine ⟨'\n', ?_, Or.inl rfl⟩
      obtain ⟨behind, rfl⟩ : ∃ behind, gap = .newline :: behind := List.head?_eq_some_iff.1 newline
      rfl
    · refine ⟨' ', ?_, Or.inr ⟨noComment, Or.inl rfl⟩⟩
      obtain ⟨behind, rfl⟩ : ∃ behind, gap = .space :: behind := List.head?_eq_some_iff.1 space
      rfl
    · obtain ⟨c, text, shown, -⟩ := shows
      refine ⟨c, ?_, Or.inr ⟨noComment, Or.inr ⟨abuts, by rw [shown]; rfl⟩⟩⟩
      rw [List.nil_append, writtenText_word]
      rw [Token.display] at shown
      rw [shown]
      rfl

/-- A text that is not blank keeps its first character when its end is trimmed. -/
theorem head?_trimEnd {text : List Char} (ink : inked text ≠ []) (rest : List Char) :
    (trimEnd text ++ rest).head? = text.head? := by
  obtain ⟨blanks, whole, blank⟩ := trimEnd_append_blanks text
  cases kept : trimEnd text with
  | nil =>
    refine absurd ?_ ink
    rw [← inked_trimEnd, kept]
    rfl
  | cons c more =>
    rw [whole, kept]
    rfl

/-- A text before one that is not blank is not trimmed. -/
theorem trimEnd_append_ink (front : List Char) {back : List Char} (ink : inked back ≠ []) :
    trimEnd (front ++ back) = front ++ trimEnd back := by
  rw [trimEnd_append, if_neg]
  intro none
  refine ink ?_
  rw [← inked_trimEnd, none]
  rfl

/-- A layout of tokens that are not all blank is not blank. -/
theorem ink_of_spread {options : Options} {earlier tokens : List Token} {pieces : List Piece}
    (spread : Spread earlier tokens pieces)
    (ink : inked (tokens.flatMap (Token.display options)) ≠ []) :
    inked (writtenText options pieces) ≠ [] := by
  rw [inked_writtenText options spread]
  exact ink

/-! ## Reading back -/

variable {options : Options} {token : Token} {earlier tokens : List Token} {pieces : List Piece}

/-- Spacing before a token is read as layout. -/
theorem lexemes_behind_gap {gap : List Piece} (shows : token.Shows options)
    (blank : ∀ piece ∈ gap, piece.isGap = true) {text : List Char}
    (first : text.head? = (token.display options).head?) :
    ∃ layout, (∀ gap ∈ layout, gap.isLayout = true) ∧ rawText layout = writtenText options gap ∧
      lexemes (writtenText options gap ++ text) = layout ++ lexemes text := by
  obtain ⟨c, rest, shown, visible⟩ := shows
  refine lexemes_spacing (spacing_writtenText options blank) fun d found => ?_
  rw [first, shown] at found
  obtain rfl : c = d := by simpa using found
  exact visible

/-- Of blank tokens nothing is left but the end of the text. -/
theorem peel_blank (spread : Spread earlier tokens pieces)
    (blank : inked (tokens.flatMap (Token.display options)) = []) :
    ended options pieces = ['\n'] := by
  have cleared : inked (writtenText options pieces) = [] := by
    rw [inked_writtenText options spread]
    exact blank
  rw [ended, trimEnd_eq_nil_iff.2 (inked_eq_nil_iff.1 cleared)]
  rfl

/-- The last token that is not blank stands trimmed before the end of the text. -/
theorem peel_last (spread : Spread earlier (token :: tokens) pieces) (shows : token.Shows options)
    (ink : inked (token.display options) ≠ [])
    (blank : inked (tokens.flatMap (Token.display options)) = []) :
    ∃ gap layout, Parted earlier gap token ∧ (∀ gap ∈ layout, gap.isLayout = true) ∧
      rawText layout = writtenText options gap ∧
      lexemes (ended options pieces) =
        layout ++ lexemes (trimEnd (token.display options) ++ ['\n']) := by
  cases spread with
  | word parted spread =>
    rename_i gap behind
    have cleared : IsBlankText (writtenText options behind) := by
      refine inked_eq_nil_iff.1 ?_
      rw [inked_writtenText options spread]
      exact blank
    have whole : ended options (gap ++ .word token :: behind) =
        writtenText options gap ++ (trimEnd (token.display options) ++ ['\n']) := by
      rw [ended, writtenText_append, writtenText_word, ← List.append_assoc,
        trimEnd_append_of_blank cleared, ← Token.display, trimEnd_append_ink _ ink,
        List.append_assoc]
    obtain ⟨layout, isLayout, spelled, read⟩ :=
      lexemes_behind_gap shows parted.blank (head?_trimEnd ink ['\n'])
    exact ⟨gap, layout, parted, isLayout, spelled, by rw [whole, read]⟩

/-- A token before others that are not all blank stands before their text as it is. -/
theorem peel_text (spread : Spread earlier (token :: tokens) pieces) (shows : token.Shows options)
    (ink : inked (tokens.flatMap (Token.display options)) ≠ []) :
    ∃ gap rest layout, Parted earlier gap token ∧ Spread (token :: earlier) tokens rest ∧
      (∀ gap ∈ layout, gap.isLayout = true) ∧ rawText layout = writtenText options gap ∧
      lexemes (ended options pieces) =
        layout ++ lexemes (token.display options ++ ended options rest) := by
  cases spread with
  | word parted spread =>
    rename_i gap behind
    have whole : ended options (gap ++ .word token :: behind) =
        writtenText options gap ++ (token.display options ++ ended options behind) := by
      rw [ended, writtenText_append, writtenText_word, ← List.append_assoc,
        trimEnd_append_ink _ (ink_of_spread spread ink), ended]
      simp only [List.append_assoc]
      rfl
    have first : (token.display options ++ ended options behind).head? =
        (token.display options).head? := by
      obtain ⟨c, text, shown, -⟩ := shows
      rw [shown]
      rfl
    obtain ⟨layout, isLayout, spelled, read⟩ := lexemes_behind_gap shows parted.blank first
    exact ⟨gap, behind, layout, parted, spread, isLayout, spelled, by rw [whole, read]⟩

/-- A token that is settled before what may follow it is read before the tokens behind it. -/
theorem peel {next : Token} (spread : Spread earlier (token :: next :: tokens) pieces)
    (shows : token.Shows options) (showsNext : next.Shows options)
    (linked : Linked options token next)
    (ink : inked ((next :: tokens).flatMap (Token.display options)) ≠ []) :
    ∃ gap rest layout, Parted earlier gap token ∧ Spread (token :: earlier) (next :: tokens) rest ∧
      (∀ gap ∈ layout, gap.isLayout = true) ∧ rawText layout = writtenText options gap ∧
      lexemes (ended options pieces) =
        layout ++ (lexemes (token.display options) ++ lexemes (ended options rest)) := by
  obtain ⟨gap, rest, layout, parted, spreadRest, isLayout, spelled, read⟩ :=
    peel_text spread shows ink
  obtain ⟨d, begins, follows⟩ := follows_of_spread showsNext spreadRest
  have settled := (linked d follows).append
    ((head?_trimEnd (ink_of_spread spreadRest ink) ['\n']).trans begins)
  exact ⟨gap, rest, layout, parted, spreadRest, isLayout, spelled, by rw [read, ended, settled]⟩

end SqlLayout
