import SqlLayout.Format
import SqlLayout.Proofs.Coverage
import SqlLayout.Proofs.Placement

/-!
# No text is lost

Formatting moves blank characters only. Every token is written once and in order, so the characters
of the formatted text that are not blank are those of the tokens (`inked_format`); and these are the
characters of the source, with the keywords respelled where they stand (`inked_respelled`).
-/

namespace SqlLayout

open Text

/-- A source with every keyword of a token list, where its span says, replaced by a spelling of it.
The source is given from an offset on. -/
def respelled (spell : Token → String) : Nat → List Token → List Char → List Char
  | _, [], source => source
  | offset, token :: rest, source =>
    if token.kind = .keyword then
      source.take (token.span.start.offset - offset) ++ (spell token).toList ++
        respelled spell token.span.stop.offset rest
          (source.drop (token.span.stop.offset - offset))
    else respelled spell offset rest source

/-- The text of a token with keywords spelled anew. -/
def Token.spelled (spell : Token → String) (token : Token) : List Char :=
  if token.kind = .keyword then (spell token).toList else token.text

/-- A source that tokens cover, with the keywords among them spelled anew, has the characters of the
tokens so spelled that are not blank. -/
theorem inked_respelled (spell : Token → String) {offset : Nat} {tokens : List Token}
    {pending text : List Char} (covers : Covers (offset + pending.length) tokens text) :
    inked (respelled spell offset tokens (pending ++ text)) =
      inked pending ++ inked (tokens.flatMap (Token.spelled spell)) := by
  induction tokens generalizing offset pending text with
  | nil =>
    cases covers with
    | done blank =>
      rw [respelled, inked_append, inked_eq_nil blank]
      rfl
  | cons token rest ih =>
    cases covers with
    | token blank start stop same others =>
      rename_i before stretch after
      rw [respelled, List.flatMap_cons, inked_append, Token.spelled]
      split
      · have front : (pending ++ (before ++ (stretch ++ after))).take
            (token.span.start.offset - offset) = pending ++ before := by
          have size : token.span.start.offset - offset = (pending ++ before).length := by
            rw [start, List.length_append]
            omega
          rw [size, ← List.append_assoc, List.take_left]
        have back : (pending ++ (before ++ (stretch ++ after))).drop
            (token.span.stop.offset - offset) = after := by
          have size : token.span.stop.offset - offset = (pending ++ before ++ stretch).length := by
            rw [stop]
            simp only [List.length_append]
            omega
          rw [size, ← List.append_assoc, ← List.append_assoc, List.drop_left]
        have later : Covers (token.span.stop.offset + ([] : List Char).length) rest after := by
          rw [stop]
          exact others
        have rest := ih later
        rw [List.nil_append] at rest
        rw [front, back, inked_append, inked_append, inked_append, inked_eq_nil blank, rest]
        simp [inked]
      · have later : Covers (offset + (pending ++ (before ++ stretch)).length) rest after := by
          have size : offset + (pending ++ (before ++ stretch)).length =
              offset + pending.length + before.length + stretch.length := by
            simp only [List.length_append]
            omega
          rw [size]
          exact others
        have rest := ih later
        have whole : pending ++ (before ++ (stretch ++ after)) =
            pending ++ (before ++ stretch) ++ after := by
          simp only [List.append_assoc]
        rw [whole, rest, inked_append, inked_append, inked_eq_nil blank, same]
        simp only [List.nil_append, List.append_assoc]

/-! ## What is written -/

/-- Spacing is blank. -/
theorem Piece.blank_of_isGap (options : Options) {piece : Piece} (gap : piece.isGap = true) :
    IsBlankText (piece.text options) := by
  cases piece with
  | word token => cases gap
  | newline =>
    intro c member
    rw [List.mem_singleton.1 member]
    rfl
  | space =>
    intro c member
    rw [List.mem_singleton.1 member]
    rfl
  | indent level =>
    intro c member
    rw [List.eq_of_mem_replicate member]
    rfl

/-- A list of spacing is blank. -/
theorem blank_writtenText (options : Options) {gap : List Piece}
    (blank : ∀ piece ∈ gap, piece.isGap = true) : IsBlankText (writtenText options gap) := by
  intro c member
  obtain ⟨piece, inside, written⟩ := List.mem_flatMap.1 member
  exact Piece.blank_of_isGap options (blank piece inside) c written

/-- The texts of two lists of pieces follow each other. -/
theorem writtenText_append (options : Options) (front back : List Piece) :
    writtenText options (front ++ back) = writtenText options front ++ writtenText options back :=
  List.flatMap_append

/-- A token is written before the pieces behind it. -/
theorem writtenText_word (options : Options) (token : Token) (rest : List Piece) :
    writtenText options (.word token :: rest) =
      (token.shown options.keywordCase).toList ++ writtenText options rest :=
  List.flatMap_cons

/-- Line breaks are spacing. -/
theorem isGap_of_mem_breaks {breaks : Nat} :
    ∀ piece ∈ List.replicate breaks Piece.newline, piece.isGap = true := by
  intro piece member
  rw [List.eq_of_mem_replicate member]
  rfl

/-- The characters of a layout that are not blank are those of its tokens. -/
theorem inked_writtenText (options : Options) {earlier tokens : List Token} {pieces : List Piece}
    (spread : State.Spread earlier tokens pieces) :
    inked (writtenText options pieces) =
      inked (tokens.flatMap fun token => (token.shown options.keywordCase).toList) := by
  induction spread with
  | done earlier breaks => exact inked_eq_nil (blank_writtenText options isGap_of_mem_breaks)
  | word parted others ih =>
    rw [writtenText_append, writtenText_word, inked_append, inked_append, ih,
      inked_eq_nil (blank_writtenText options parted.blank), List.flatMap_cons, inked_append]
    rfl

/-- Tokens that are not written are blank. -/
theorem inked_written (keywordCase : KeywordCase) {tokens : List Token} (closed : Closed tokens)
    (genuine : ∀ token ∈ tokens, token.Genuine) :
    inked ((written tokens).flatMap fun token => (token.shown keywordCase).toList) =
      inked (tokens.flatMap (Token.spelled (Token.shown keywordCase))) := by
  have plain {token : Token} (known : token.kind ≠ .keyword) :
      Token.spelled (Token.shown keywordCase) token = token.text := if_neg known
  induction closed with
  | last ended =>
    rename_i token
    rw [written_cons_eof ended, List.flatMap_singleton, plain (by rw [ended]; decide),
      (genuine token List.mem_cons_self).ended ended]
    rfl
  | cons going others ih =>
    rename_i token rest
    have here := genuine token List.mem_cons_self
    have later := ih fun token member => genuine token (List.mem_cons_of_mem _ member)
    rw [List.flatMap_cons, inked_append, ← later]
    cases layout : token.isLayout with
    | true =>
      have known : token.kind ≠ .keyword := fun keyword => by
        rw [Token.isLayout_of_keyword keyword] at layout
        cases layout
      rw [written_cons_layout layout, plain known, inked_eq_nil (here.layout layout)]
      rfl
    | false =>
      rw [written_cons layout going, List.flatMap_cons, inked_append]
      congr 2
      by_cases keyword : token.kind = .keyword
      · rw [Token.spelled, if_pos keyword]
      · rw [plain keyword, Token.shown_plain _ keyword, here.value keyword]
        rfl

/-- The tokens of a source, fused, are genuine, cover it and are closed. -/
theorem fuse_tokenize (source : String) : (∀ token ∈ fuse (tokenize source), token.Genuine) ∧
    Covers 0 (fuse (tokenize source)) source.toList ∧ Closed (fuse (tokenize source)) := by
  have read : ∀ token ∈ tokenize source, token.Genuine := fun _ => genuine_of_mem_tokenize
  have genuine := genuine_fuseBodies read
  have covers : Covers 0 (tokenize source) source.toList :=
    covers_tokensFrom Position.first source.toList
  have closed : Closed (tokenize source) := closed_tokensFrom _ _
  exact ⟨genuine_fuseKeywords genuine, covers.fuseBodies.fuseKeywords genuine,
    closed.fuseBodies.fuseKeywords⟩

/-- The characters of a formatted text that are not blank are those of the fused tokens. -/
theorem inked_format (options : Options) (source : String) :
    inked (format options source).toList = inked ((fuse (tokenize source)).flatMap
      (Token.spelled (Token.shown options.keywordCase))) := by
  obtain ⟨genuine, -, closed⟩ := fuse_tokenize source
  have lineFeed : inked ['\n'] = [] := by decide
  rw [format, render, finished, String.toList_ofList, inked_append, inked_trim, lineFeed,
    List.append_nil, inked_writtenText options (spread_pieces _ _), inked_written _ closed genuine]

/-- Formatting loses, adds and moves no character that is not blank. With keywords as they are, the
characters are those of the source; in capitals or small letters, those of the source with every
keyword replaced by its canonical text in that case. -/
theorem format_conserves (indentSize : Int) (commaPosition : CommaPosition) (source : String) :
    inked (format ⟨indentSize, .preserve, commaPosition⟩ source).toList = inked source.toList ∧
    inked (format ⟨indentSize, .upper, commaPosition⟩ source).toList =
      inked (respelled (fun token => upper token.value) 0 (fuse (tokenize source))
        source.toList) ∧
    inked (format ⟨indentSize, .lower, commaPosition⟩ source).toList =
      inked (respelled (fun token => lower token.value) 0 (fuse (tokenize source))
        source.toList) := by
  obtain ⟨-, covers, -⟩ := fuse_tokenize source
  have respell (spell : Token → String) : inked (respelled spell 0 (fuse (tokenize source))
      source.toList) = inked ((fuse (tokenize source)).flatMap (Token.spelled spell)) := by
    have start : Covers (0 + ([] : List Char).length) (fuse (tokenize source)) source.toList := covers
    exact inked_respelled spell start
  have spelling {keywordCase : KeywordCase} {spell : Token → String}
      (same : ∀ token, token.kind = .keyword → token.shown keywordCase = spell token) :
      Token.spelled (Token.shown keywordCase) = Token.spelled spell := by
    funext token
    rw [Token.spelled, Token.spelled]
    split
    · rw [same token ‹_›]
    · rfl
  refine ⟨?_, ?_, ?_⟩
  · have kept : Token.spelled Token.raw = Token.text := by
      funext token
      rw [Token.spelled]
      split <;> rfl
    rw [inked_format, covers.inked_text, rawText, ← kept]
    congr 2
    exact spelling fun token keyword => if_pos keyword
  · rw [inked_format, respell]
    congr 2
    exact spelling fun token keyword => if_pos keyword
  · rw [inked_format, respell]
    congr 2
    exact spelling fun token keyword => if_pos keyword

end SqlLayout
