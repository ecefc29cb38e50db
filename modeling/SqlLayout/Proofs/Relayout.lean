import SqlLayout.Proofs.Outline
import SqlLayout.Proofs.Readback

/-!
# The layout of a source

Where the tokens of a source stand does not matter for its layout, so the formatted text is a layout
of the lexemes of the source with its bodies fused (`spread_format`). A lexeme is settled before
whatever a layout writes behind it, unless a number and a dot come together (`linked_of_read`).
-/

namespace SqlLayout

open Text State

/-! ## Places do not matter -/

/-- Dropping places keeps all that a layout depends on. -/
theorem faithful_unplaced : Faithful Token.unplaced where
  kind := fun _ => rfl
  value := fun _ _ => rfl
  compound := by
    intro first others _ _
    have values : (first.unplaced :: others.map Token.unplaced).map Token.value =
        (first :: others).map Token.value := by
      rw [← List.map_cons, List.map_map]
      rfl
    have raws : (first.unplaced :: others.map Token.unplaced).map Token.raw =
        (first :: others).map Token.raw := by
      rw [← List.map_cons, List.map_map]
      rfl
    have stop : ((others.map Token.unplaced).getLast?.getD first.unplaced).span.stop = .first := by
      rw [List.getLast?_map]
      cases others.getLast? <;> rfl
    rw [Token.compound, Token.compound, stop, values, raws]
    rfl
  startsLine := fun _ => rfl

namespace Respects

variable {change : Token → Token} (respects : Respects change)

include respects

/-- Tokens are significant alike. -/
theorem significant_map (tokens : List Token) :
    significant (tokens.map change) = (significant tokens).map change := by
  rw [significant, List.filter_map, significant]
  congr 2
  funext token
  rw [Function.comp_apply, respects.isLayout]

/-- The tokens through a significant one are found alike. -/
theorem throughSignificant_map {accepts : Token → Bool}
    (same : ∀ token, accepts (change token) = accepts token) (tokens : List Token) :
    throughSignificant accepts (tokens.map change) =
      (throughSignificant accepts tokens).map fun (taken, after) =>
        (taken.map change, after.map change) := by
  have layout : Token.isLayout ∘ change = Token.isLayout := funext respects.isLayout
  unfold throughSignificant
  rw [respects.skipLayout_map]
  cases skipLayout tokens with
  | nil => rfl
  | cons token rest =>
    simp only [List.map_cons, same]
    split
    · simp [List.takeWhile_map, layout]
    · rfl

/-- Headers are found alike. -/
theorem languageHeader?_map (tokens : List Token) :
    languageHeader? (tokens.map change) =
      (languageHeader? tokens).map fun (header, after) =>
        (header.map change, after.map change) := by
  have names (token : Token) : (change token).kind.namesLanguage = token.kind.namesLanguage := by
    rw [respects.kind]
  unfold languageHeader?
  rw [respects.throughSignificant_map names]
  cases throughSignificant (·.kind.namesLanguage) tokens with
  | none => rfl
  | some pair =>
    obtain ⟨taken, afterName⟩ := pair
    simp only [Option.map_some, Option.bind_eq_bind, Option.bind_some]
    rw [respects.throughSignificant_map (respects.isKeyword "AS")]
    cases throughSignificant (Token.isKeyword "AS") afterName with
    | none => rfl
    | some pair =>
      obtain ⟨marked, afterMark⟩ := pair
      simp only [Option.map_some, Option.bind_some]
      rw [nextSignificant, respects.skipLayout_map, List.head?_map, ← nextSignificant]
      cases nextSignificant afterMark with
      | none => rfl
      | some first =>
        simp only [Option.map_some, Option.bind_some, respects.kind]
        split <;> simp

/-- Bodies are found alike. -/
theorem bodyAt?_map (token : Token) (rest : List Token) :
    bodyAt? (change token) (rest.map change) =
      (bodyAt? token rest).map fun (header, body, after) =>
        (header.map change, body.map change, after.map change) := by
  have going : (fun token : Token => !token.kind.endsStatement) ∘ change =
      fun token => !token.kind.endsStatement := by
    funext token
    rw [Function.comp_apply, respects.kind]
  unfold bodyAt?
  rw [respects.isKeyword, respects.languageHeader?_map]
  split
  · simp only [Option.map_map]
    congr 1
    funext pair
    simp [List.takeWhile_map, List.dropWhile_map, going]
  · rfl

/-- Headers of bare bodies stand in the same lists. -/
theorem hasRoutine_map (tokens : List Token) :
    hasRoutine (tokens.map change) = hasRoutine tokens := by
  induction tokens with
  | nil => rfl
  | cons token rest ih =>
    have starts : startsRoutine ((token :: rest).map change) = startsRoutine (token :: rest) := by
      rcases rest with - | ⟨name, - | ⟨mark, - | ⟨first, behind⟩⟩⟩
      · rfl
      · rfl
      · rfl
      · simp only [List.map_cons, startsRoutine, respects.isKeyword, respects.kind]
    rw [List.map_cons] at starts
    rw [List.map_cons, hasRoutine, starts, ih, hasRoutine]

end Respects

/-- A body becomes the same token wherever it stands. -/
theorem bodyToken_unplaced (body : List Token) :
    bodyToken (body.map Token.unplaced) = (bodyToken body).map Token.unplaced := by
  have text : bodyText (body.map Token.unplaced) = bodyText body := by
    rw [bodyText, List.flatMap_map]
    rfl
  cases body with
  | nil => rfl
  | cons first others =>
    rw [List.map_cons] at text
    rw [List.map_cons, bodyToken_cons, bodyToken_cons, text, List.getLast?_map]
    split
    · rfl
    · cases others.getLast? <;> rfl

/-- Bodies are fused alike wherever the tokens stand. -/
theorem fuseBodies_unplaced (tokens : List Token) :
    fuseBodies (tokens.map Token.unplaced) = (fuseBodies tokens).map Token.unplaced := by
  fun_induction fuseBodies tokens with
  | case1 => rw [List.map_nil, fuseBodies]
  | case2 token rest header body after found ih =>
    have again := faithful_unplaced.bodyAt?_map token rest
    rw [found, Option.map_some] at again
    rw [List.map_cons, fuseBodies_cons_some again, ih, bodyToken_unplaced]
    cases bodyToken body <;> simp
  | case3 token rest found ih =>
    have again := faithful_unplaced.bodyAt?_map token rest
    rw [found, Option.map_none] at again
    rw [List.map_cons, List.map_cons, fuseBodies_cons_none again, ih]

/-- The tokens of a source, fused, are its lexemes, fused. -/
theorem fuse_unplaced (source : String) :
    (fuse (tokenize source)).map Token.unplaced =
      fuseKeywords (fuseBodies (lexemes source.toList ++ [endToken])) := by
  rw [fuse, ← faithful_unplaced.fuseKeywords_map, ← fuseBodies_unplaced, unplaced_tokenize]

/-- A change that no spelling shows is not written. -/
theorem writtenText_relabel (options : Options) {change : Token → Token}
    (same : ∀ token, (change token).shown options.keywordCase = token.shown options.keywordCase)
    (pieces : List Piece) :
    writtenText options (pieces.map (Piece.relabel change)) = writtenText options pieces := by
  rw [writtenText, List.flatMap_map, writtenText]
  congr 1
  funext piece
  cases piece with
  | word token => exact congrArg String.toList (same token)
  | newline => rfl
  | space => rfl
  | indent level => rfl

/-- The formatted text of a source is that of its lexemes, fused. -/
theorem format_eq (options : Options) (source : String) :
    format options source = finished (writtenText options (pieces options.commaPosition
      (fuseKeywords (fuseBodies (lexemes source.toList ++ [endToken]))))) := by
  have shown (token : Token) :
      token.unplaced.shown options.keywordCase = token.shown options.keywordCase := rfl
  have placed := writtenText_relabel options shown
    (pieces options.commaPosition (fuse (tokenize source)))
  rw [← faithful_unplaced.pieces_map, fuse_unplaced] at placed
  rw [format, render, placed]

/-! ## The formatted text -/

/-- What is written is neither layout nor the end. -/
theorem of_mem_written {tokens : List Token} {token : Token} (member : token ∈ written tokens) :
    token ∈ tokens ∧ token.isLayout = false ∧ token.kind ≠ .eof := by
  obtain ⟨inside, visible⟩ := List.mem_filter.1 member
  have going := List.mem_takeWhile_imp inside
  exact ⟨(List.takeWhile_sublist _).mem inside, by simpa using visible, by simpa using going⟩

/-- Significant tokens before the end are written before the tokens behind them. -/
theorem written_append {front : List Token} (going : ∀ token ∈ front, token.kind ≠ .eof)
    (back : List Token) : written (front ++ back) = significant front ++ written back := by
  have taken : ∀ token ∈ front, (token.kind != .eof) = true := fun token member => by
    simpa using going token member
  rw [written, List.takeWhile_append_of_pos taken, List.filter_append]
  rfl

/-- A token that is neither layout nor the end is written, if no end comes before it. -/
theorem mem_written {front : List Token} {token : Token}
    (going : ∀ other ∈ front, other.kind ≠ .eof) (visible : token.isLayout = false)
    (goingToo : token.kind ≠ .eof) (back : List Token) : token ∈ written (front ++ token :: back) := by
  rw [written_append going, written_cons visible goingToo]
  exact List.mem_append_right _ List.mem_cons_self

/-- The significant tokens of a closed list are those that are written and the end. -/
theorem Closed.significant_eq {tokens : List Token} (closed : Closed tokens) :
    ∃ last, last.kind = .eof ∧ significant tokens = written tokens ++ [last] := by
  induction closed with
  | last isEnd =>
    rename_i token
    have visible : token.isLayout = false := by
      rw [Token.isLayout, isEnd]
      rfl
    exact ⟨token, isEnd, by rw [significant_cons visible, written_cons_eof isEnd]; rfl⟩
  | cons going others ih =>
    rename_i token rest
    obtain ⟨last, isEnd, split⟩ := ih
    refine ⟨last, isEnd, ?_⟩
    cases layout : token.isLayout with
    | true => rw [significant_cons_layout layout, written_cons_layout layout, split]
    | false => rw [significant_cons layout, written_cons layout going, split, List.cons_append]

/-- Keywords are fused among the tokens that are written. -/
theorem written_fuseKeywords {tokens : List Token} (closed : Closed tokens) :
    written (fuseKeywords tokens) = fuseKeywords (written tokens) := by
  obtain ⟨last, isEnd, split⟩ := closed.significant_eq
  obtain ⟨other, -, fused⟩ := closed.fuseKeywords.significant_eq
  have visible : last.isLayout = false := by
    rw [Token.isLayout, isEnd]
    rfl
  have plain : last.kind ≠ .keyword := by
    rw [isEnd]
    decide
  rw [significant_fuseKeywords, split, fuseKeywords_append visible plain, fuseKeywords] at fused
  exact (List.append_inj_left' fused rfl).symm

/-- The lexemes of a source and the end are closed. -/
theorem closed_lexemes (source : List Char) : Closed (lexemes source ++ [endToken]) := by
  refine (Closed.append_iff fun token member => ?_).2 (Closed.last rfl)
  obtain ⟨rest, read⟩ := readBefore_of_mem member
  exact read.kind_ne_eof

/-- The lexemes of a source that are written are the significant ones. -/
theorem written_lexemes (source : List Char) :
    written (lexemes source ++ [endToken]) = significant (lexemes source) := by
  have going : ∀ token ∈ lexemes source, token.kind ≠ .eof := by
    intro token member
    obtain ⟨rest, read⟩ := readBefore_of_mem member
    exact read.kind_ne_eof
  rw [written_append going, written_cons_eof rfl, List.append_nil]

/-- A written token of a source is a lexeme of it or was made from a body. -/
theorem of_mem_written_fuseBodies {source : List Char} {token : Token}
    (member : token ∈ written (fuseBodies (lexemes source ++ [endToken]))) :
    (∃ rest, token.ReadBefore rest ∧ token.kind.isLayout = false) ∨
      ∃ body, bodyToken body = some token := by
  obtain ⟨inside, visible, going⟩ := of_mem_written member
  rcases mem_fuseBodies inside with lexed | made
  · rcases List.mem_append.1 lexed with found | isEnd
    · obtain ⟨rest, read⟩ := readBefore_of_mem found
      exact Or.inl ⟨rest, read, visible⟩
    · rw [List.mem_singleton.1 isEnd] at going
      exact absurd rfl going
  · exact Or.inr made

/-- A token as it is shown is a token of a source again. -/
theorem Token.ReadBefore.recast {token : Token} {rest : List Char} (read : token.ReadBefore rest)
    (visible : token.kind.isLayout = false) (keywordCase : KeywordCase) :
    (token.recast keywordCase).ReadBefore [] := by
  have alone : lexemes (token.shown keywordCase).toList = [] ++ [token.recast keywordCase] :=
    read.lexemes_shown visible keywordCase
  exact readBefore_of_split alone

/-- A token of a source is shown. -/
theorem Token.ReadBefore.shows {token : Token} {rest : List Char} (read : token.ReadBefore rest)
    (visible : token.kind.isLayout = false) (options : Options) : token.Shows options := by
  obtain ⟨c, tail, spelled, noGap, -⟩ := (read.recast visible options.keywordCase).first visible
  exact ⟨c, tail, spelled, noGap⟩

/-- The canonical text of a token of a source is not empty. -/
theorem Token.ReadBefore.value_ne_nil {token : Token} {rest : List Char}
    (read : token.ReadBefore rest) (visible : token.kind.isLayout = false) :
    token.value.toList ≠ [] := by
  by_cases keyword : token.kind = .keyword
  · obtain ⟨c, tail, same, -⟩ := (spells_self (read.listed keyword)).start
    rw [same]
    exact List.cons_ne_nil c tail
  · obtain ⟨c, tail, spelled, -⟩ := read.first visible
    rw [read.value_eq_raw keyword]
    change token.text ≠ []
    rw [spelled]
    exact List.cons_ne_nil c tail

/-- A body is shown as its text, which starts with neither a space nor a tab. -/
theorem shows_of_bodyToken {body : List Token} {token : Token} (made : bodyToken body = some token)
    (options : Options) : token.Shows options ∧ token.value.toList ≠ [] := by
  obtain ⟨_, _, _, nonempty, rfl⟩ := bodyToken_eq_some made
  cases shown : (bodyText body).toList with
  | nil => exact absurd (String.toList_inj.1 shown) nonempty
  | cons c rest =>
    have first := List.head?_dropWhile_not (fun c => c == ' ' || c == '\t')
      (trimEnd (body.flatMap fun token => token.raw.toList))
    rw [bodyText, String.toList_ofList] at shown
    rw [shown] at first
    refine ⟨⟨c, rest, ?_, first⟩, List.cons_ne_nil c rest⟩
    rw [← shown, Token.display, Token.shown_plain]
    · rw [bodyText, String.toList_ofList]
    · exact fun keyword => by cases keyword

/-- The formatted text is a layout of the lexemes of a source with its bodies fused, trimmed. -/
theorem spread_format (options : Options) (source : String) :
    ∃ pieces, Spread [] (written (fuseBodies (lexemes source.toList ++ [endToken]))) pieces ∧
      (format options source).toList = trim (writtenText options pieces) ++ ['\n'] := by
  obtain ⟨fused, same⟩ : ∃ fused, fuseBodies (lexemes source.toList ++ [endToken]) = fused := ⟨_, rfl⟩
  have closed : Closed fused := by
    rw [← same]
    exact (closed_lexemes _).fuseBodies
  have spread := spread_pieces options.commaPosition (fuseKeywords fused)
  rw [written_fuseKeywords closed] at spread
  have grouped := grouped_fuseKeywords fun token (member : token ∈ written fused) =>
    (of_mem_written member).2.1
  have values : ∀ token ∈ written fused, token.value.toList ≠ [] := by
    intro token member
    rw [← same] at member
    rcases of_mem_written_fuseBodies member with ⟨rest, read, visible⟩ | ⟨body, made⟩
    · exact read.value_ne_nil visible
    · exact (shows_of_bodyToken made options).2
  obtain ⟨parts, spreadParts, text⟩ :=
    spread_ungrouped options grouped values ⟨rfl, id⟩ spread
  refine ⟨parts, by rw [same]; exact spreadParts, ?_⟩
  rw [format_eq, finished, String.toList_ofList, text, same]

/-! ## What may follow a token -/

/-- Whether a token and the next one are read otherwise when they touch: a number before a dot, and a
dot before a number that starts with a digit. -/
def Token.runsInto (token next : Token) : Bool :=
  token.kind == .number && next.kind == .dot ||
    token.kind == .dot && next.kind == .number && next.raw.toList.head?.any isDigit

/-- Every lexeme halts at a line feed. -/
theorem Kind.haltsAt_newline (kind : Kind) : kind.haltsAt '\n' = true := by
  cases kind <;> rfl

/-- Every lexeme but a comment up to the end of its line halts at the characters that separate
lexemes. -/
theorem Kind.haltsAt_of_isBreak {kind : Kind} (plain : kind ≠ .comment) {d : Char}
    (separates : isBreak d = true) : kind.haltsAt d = true := by
  have noDigit : isDigit d = false := by
    rcases break_cases (Or.inl separates) with
      rfl | rfl | rfl | rfl | rfl | rfl | rfl | rfl | rfl <;> rfl
  cases kind <;> first | rfl | exact absurd rfl plain | simp [haltsAt, separates, noDigit]

/-- A token that is no comment of either form is none up to the end of its line. -/
theorem Token.kind_ne_comment {token : Token} (plain : token.isComment = false) :
    token.kind ≠ .comment := by
  intro comment
  rw [isComment, comment] at plain
  cases plain

/-- No token of a source starts with the end of a line. -/
theorem Token.ReadBefore.startsLine {token : Token} {rest : List Char}
    (read : token.ReadBefore rest) (visible : token.kind.isLayout = false) :
    token.startsLine = false := by
  have value : token.shown .upper = token.value := by
    by_cases keyword : token.kind = .keyword
    · have capitals : token.shown .upper = upper token.value := if_pos keyword
      rw [capitals, upper_of_mem (read.listed keyword)]
    · exact Token.shown_plain _ keyword
  obtain ⟨c, tail, spelled, -, sameLine, -⟩ := (read.recast visible .upper).first visible
  change (token.shown .upper).toList = c :: tail at spelled
  rw [value] at spelled
  rw [Token.startsLine, spelled]
  rw [isLineEnd, Bool.or_comm] at sameLine
  exact sameLine

/-- A punctuation mark is shown as its character. -/
theorem first_of_mark {token : Token} {rest : List Char} (read : token.ReadBefore rest)
    (keywordCase : KeywordCase) {d : Char}
    (first : (token.shown keywordCase).toList.head? = some d) :
    (token.kind = .lparen → d = '(') ∧ (token.kind = .rparen → d = ')') ∧
    (token.kind = .comma → d = ',') ∧ (token.kind = .semicolon → d = ';') ∧
    (token.kind = .dot → d = '.') := by
  have spelled (isMark : token.kind = .lparen ∨ token.kind = .rparen ∨ token.kind = .comma ∨
      token.kind = .semicolon ∨ token.kind = .dot) : d = '(' ∧ token.kind = .lparen ∨
      d = ')' ∧ token.kind = .rparen ∨ d = ',' ∧ token.kind = .comma ∨
      d = ';' ∧ token.kind = .semicolon ∨ d = '.' ∧ token.kind = .dot := by
    obtain ⟨c, tail, same, marks⟩ := read.text_of_mark isMark
    have plain : token.kind ≠ .keyword := by
      rintro keyword
      rw [keyword] at isMark
      simp at isMark
    have shown : (token.shown keywordCase).toList = token.text := by
      rw [Token.shown_plain _ plain, read.value_eq_raw plain]
      rfl
    rw [shown, same] at first
    rwa [← Option.some.inj first]
  refine ⟨?_, ?_, ?_, ?_, ?_⟩ <;>
  · intro kind
    rw [kind] at spelled
    simpa using spelled

/-- A token of a source halts at the first character of the next one, if they may touch. -/
theorem haltsAt_of_abuts {token next : Token} {rest : List Char} (read : next.ReadBefore rest)
    (visible : next.kind.isLayout = false) (plain : token.isComment = false)
    (apart : token.runsInto next = false) (abuts : token.Abuts next) (keywordCase : KeywordCase)
    {d : Char} (first : (next.shown keywordCase).toList.head? = some d) :
    token.kind.haltsAt d = true := by
  obtain ⟨opening, closing, comma, semicolon, dot⟩ := first_of_mark read keywordCase first
  have separated (separates : isBreak d = true) :=
    Kind.haltsAt_of_isBreak (Token.kind_ne_comment plain) separates
  rcases abuts with isOpen | isDot | kind | kind | kind | kind | kind | line
  · rw [isOpen]
    rfl
  · rw [isDot, Kind.haltsAt, Bool.not_eq_true', Bool.eq_false_iff]
    intro digit
    obtain ⟨c, tail, spelled, -, -, -, number⟩ := (read.recast visible keywordCase).first visible
    change (next.shown keywordCase).toList = c :: tail at spelled
    rw [spelled] at first
    obtain rfl : c = d := Option.some.inj first
    have isNumber : next.kind = .number := number digit
    have noKeyword : next.kind ≠ .keyword := by
      rw [isNumber]
      decide
    rw [Token.shown_plain _ noKeyword, read.value_eq_raw noKeyword] at spelled
    simp [Token.runsInto, isDot, isNumber, spelled, digit] at apart
  · exact separated (by rw [opening kind]; rfl)
  · exact separated (by rw [closing kind]; rfl)
  · exact separated (by rw [comma kind]; rfl)
  · exact separated (by rw [semicolon kind]; rfl)
  · rw [dot kind]
    unfold Token.isComment at plain
    cases before : token.kind with
    | number => simp [Token.runsInto, before, kind] at apart
    | comment => rw [before] at plain; cases plain
    | _ => rfl
  · rw [read.startsLine visible] at line
    cases line

/-- A token that is not at the end of its source is settled before whatever a layout writes between
it and the next token of the source. -/
theorem linked_of_read {token next : Token} {rest behind : List Char} (read : token.ReadBefore rest)
    (visible : token.kind.isLayout = false) (going : rest ≠ []) (readNext : next.ReadBefore behind)
    (visibleNext : next.kind.isLayout = false) (apart : token.runsInto next = false)
    (options : Options) : Linked options token next := by
  intro d follows
  refine read.settled_shown visible going ?_ _
  rcases follows with rfl | ⟨plain, rfl | ⟨abuts, first⟩⟩
  · exact token.kind.haltsAt_newline
  · exact Kind.haltsAt_of_isBreak (Token.kind_ne_comment plain) rfl
  · exact haltsAt_of_abuts readNext visibleNext plain apart abuts _ first

/-- The significant lexemes of a source are settled before one another, unless a number and a dot come
together. -/
theorem linked_lexemes {source : List Char} {front tokens : List Token}
    (split : lexemes source = front ++ tokens)
    (apart : (significant tokens).IsChain fun token next => token.runsInto next = false)
    (options : Options) : (significant tokens).IsChain (Linked options) := by
  induction tokens generalizing front with
  | nil => exact List.IsChain.nil
  | cons token rest ih =>
    have later : lexemes source = (front ++ [token]) ++ rest := by
      rw [split, List.append_assoc, List.singleton_append]
    cases layout : token.isLayout with
    | true =>
      rw [significant_cons_layout layout] at apart ⊢
      exact ih later apart
    | false =>
      rw [significant_cons layout] at apart ⊢
      obtain ⟨apartNext, apartOthers⟩ := List.isChain_cons.1 apart
      refine List.isChain_cons.2 ⟨fun next first => ?_, ih later apartOthers⟩
      obtain ⟨isNext, visibleNext⟩ := of_mem_significant (List.mem_of_mem_head? first)
      have member : next ∈ lexemes source := by
        rw [split]
        exact List.mem_append_right _ (List.mem_cons_of_mem _ isNext)
      obtain ⟨behind, readNext⟩ := readBefore_of_mem member
      have going : rawText rest ≠ [] := by
        obtain ⟨c, tail, spelled, -⟩ := readNext.first visibleNext
        intro none
        have empty := List.flatMap_eq_nil_iff.1 none next isNext
        rw [spelled] at empty
        cases empty
      exact linked_of_read (readBefore_of_split split) layout going readNext visibleNext
        (apartNext next first) options

end SqlLayout
