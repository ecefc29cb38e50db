import SqlLayout.Proofs.Preservation

/-!
# Formatting is idempotent

A formatted text of a plain source has the outlines of the source (`Plain.outline_format`), so it is
laid out with the same spacing, and its tokens are shown alike, the last one up to blanks at its end.
What the formatted text is trimmed to is then the same.
-/

namespace SqlLayout

open Text State

/-! ## Layouts with the same spacing -/

/-- Spacing has no token to change. -/
theorem map_relabel_of_isGap (change : Token → Token) {gap : List Piece}
    (blank : ∀ piece ∈ gap, piece.isGap = true) : gap.map (Piece.relabel change) = gap := by
  conv_rhs => rw [← List.map_id gap]
  refine List.map_congr_left fun piece member => ?_
  have isGap := blank piece member
  cases piece with
  | word token => cases isGap
  | newline => rfl
  | space => rfl
  | indent level => rfl

/-- Pieces that are relabelled to the same have the same spacing before their first tokens. -/
theorem gap_eq_of_relabel {change : Token → Token} {gap other : List Piece}
    (blank : ∀ piece ∈ gap, piece.isGap = true) (blankOther : ∀ piece ∈ other, piece.isGap = true)
    {token word : Token} {pieces others : List Piece}
    (same : (gap ++ .word token :: pieces).map (Piece.relabel change) =
      (other ++ .word word :: others).map (Piece.relabel change)) :
    gap = other ∧ pieces.map (Piece.relabel change) = others.map (Piece.relabel change) := by
  rw [List.map_append, List.map_append, map_relabel_of_isGap change blank,
    map_relabel_of_isGap change blankOther] at same
  have gaps := congrArg (List.takeWhile Piece.isGap) same
  rw [List.map_cons, List.map_cons, Piece.relabel, Piece.relabel, takeWhile_isGap blank,
    takeWhile_isGap blankOther] at gaps
  subst gaps
  exact ⟨rfl, (List.cons.inj (List.append_cancel_left same)).2⟩

/-- Layouts with the same spacing and the same texts are written alike, up to blanks at the end. -/
theorem trimEnd_writtenText_congr {options : Options} {change : Token → Token}
    {front others earlier before : List Token} {last other : Token} {pieces parts : List Piece}
    (spread : Spread earlier (front ++ [last]) pieces)
    (spreadOther : Spread before (others ++ [other]) parts)
    (same : pieces.map (Piece.relabel change) = parts.map (Piece.relabel change))
    (shown : front.map (Token.display options) = others.map (Token.display options))
    (shownLast : trimEnd (last.display options) = trimEnd (other.display options)) :
    trimEnd (writtenText options pieces) = trimEnd (writtenText options parts) := by
  induction front generalizing others earlier before pieces parts with
  | nil =>
    obtain rfl : others = [] := by simpa using shown.symm
    cases spread with
    | word parted spread =>
      cases spreadOther with
      | word partedOther spreadOther =>
        obtain ⟨rfl, -⟩ := gap_eq_of_relabel parted.blank partedOther.blank same
        cases spread with
        | done _ breaks =>
          cases spreadOther with
          | done _ breaksOther =>
            have blank (breaks : Nat) : IsBlankText
                (writtenText options (List.replicate breaks Piece.newline)) :=
              blank_writtenText options isGap_of_mem_breaks
            rw [writtenText_append, writtenText_append, writtenText_word, writtenText_word,
              ← List.append_assoc, ← List.append_assoc, trimEnd_append_of_blank (blank breaks),
              trimEnd_append_of_blank (blank breaksOther)]
            exact trimEnd_append_congr _ shownLast
  | cons token front ih =>
    cases others with
    | nil => cases shown
    | cons word others =>
      cases spread with
      | word parted spread =>
        cases spreadOther with
        | word partedOther spreadOther =>
          obtain ⟨rfl, rest⟩ := gap_eq_of_relabel parted.blank partedOther.blank same
          obtain ⟨first, later⟩ := List.cons.inj shown
          rw [writtenText_append, writtenText_append, writtenText_word, writtenText_word,
            ← Token.display, ← Token.display, first, ← List.append_assoc, ← List.append_assoc]
          exact trimEnd_append_congr _ (ih spread spreadOther rest later)

/-! ## Formatting twice -/

/-- A token is shown once and for all. -/
theorem Token.shown_recast (keywordCase : KeywordCase) (token : Token) :
    (token.recast keywordCase).shown keywordCase = token.shown keywordCase := by
  by_cases keyword : token.kind = .keyword
  · cases keywordCase with
    | preserve => exact if_pos keyword
    | upper => rfl
    | lower => rfl
    | other name => rfl
  · have plain : (token.recast keywordCase).kind ≠ .keyword := keyword
    rw [shown_plain _ keyword, shown_plain _ plain]
    rfl

/-- A token up to blanks at its end is shown up to blanks at its end. -/
theorem Token.Trims.shown {keywordCase : KeywordCase} {other token : Token}
    (trims : other.Trims (token.recast keywordCase)) :
    trimEnd (other.shown keywordCase).toList = trimEnd (token.shown keywordCase).toList := by
  by_cases keyword : token.kind = .keyword
  · rw [trims.keyword keyword, shown_recast]
  · have plain : other.kind ≠ .keyword := by
      rw [trims.kind]
      exact keyword
    rw [shown_plain _ plain, trims.value plain]
    exact trims.text

/-- The formatted text of a source without bare bodies is a layout of its significant lexemes,
fused. -/
theorem format_lexemes (options : Options) {source : String}
    (bare : fuseBodies (lexemes source.toList ++ [endToken]) = lexemes source.toList ++ [endToken]) :
    Spread [] (fuseKeywords (significant (lexemes source.toList)))
        (pieces options.commaPosition
          (fuseKeywords (significant (lexemes source.toList)) ++ [endToken])) ∧
      format options source = finished (writtenText options (pieces options.commaPosition
        (fuseKeywords (significant (lexemes source.toList)) ++ [endToken]))) := by
  have same : fuseKeywords (significant (lexemes source.toList)) ++ [endToken] =
      significant (fuseKeywords (lexemes source.toList ++ [endToken])) := by
    have visible : endToken.isLayout = false := rfl
    have plain : endToken.kind ≠ .keyword := by decide
    have none : fuseKeywords (significant []) = [] := by
      rw [significant, List.filter_nil, fuseKeywords]
    rw [significant_fuseKeywords, significant_append, significant_cons visible,
      fuseKeywords_append visible plain, none]
  have spread := spread_pieces options.commaPosition
    (fuseKeywords (lexemes source.toList ++ [endToken]))
  rw [written_fuseKeywords (closed_lexemes source.toList), written_lexemes] at spread
  rw [same, pieces_significant, format_eq, bare]
  exact ⟨spread, rfl⟩

/-- Formatting a formatted text of a plain source changes nothing. -/
theorem format_idempotent (options : Options) {source : String} (plain : Plain source) :
    format options (format options source) = format options source := by
  obtain ⟨spread, text⟩ := format_lexemes options plain.fuseBodies_lexemes
  obtain ⟨spreadAgain, textAgain⟩ := format_lexemes options (plain.fuseBodies_format options)
  rw [textAgain]
  conv_rhs => rw [text]
  rcases plain.fuseKeywords_format options with
    ⟨none, noneToo⟩ | ⟨front, last, other, split, again, trims⟩
  · rw [none, noneToo]
  have outlines : (front ++ [last] ++ [endToken]).map Token.outline =
      (front.map (Token.recast options.keywordCase) ++ [other] ++ [endToken]).map Token.outline := by
    rw [← split, ← again, List.map_append, ← faithful_outline.fuseKeywords_map,
      ← plain.outline_format options, faithful_outline.fuseKeywords_map, List.map_append]
  rw [split] at spread ⊢
  rw [again] at spreadAgain ⊢
  have spacing := congrArg (pieces options.commaPosition) outlines
  rw [faithful_outline.pieces_map, faithful_outline.pieces_map] at spacing
  have shown : front.map (Token.display options) =
      (front.map (Token.recast options.keywordCase)).map (Token.display options) := by
    rw [List.map_map]
    refine List.map_congr_left fun token _ => ?_
    rw [Function.comp_apply, Token.display, Token.display, Token.shown_recast]
  have same := trimEnd_writtenText_congr spread spreadAgain spacing shown trims.shown.symm
  rw [finished, finished, trim_congr same]

/-- Formatting the query twice is formatting it once. -/
theorem format_idempotent_query :
    Plain "select a.b, 'x -- y' from t group  by 1 -- end \t" ∧
    format ⟨4, .lower, .leading⟩ (format ⟨4, .lower, .leading⟩
        "select a.b, 'x -- y' from t group  by 1 -- end \t") =
      format ⟨4, .lower, .leading⟩ "select a.b, 'x -- y' from t group  by 1 -- end \t" :=
  ⟨plain_query, format_idempotent ⟨4, .lower, .leading⟩ plain_query⟩

end SqlLayout
