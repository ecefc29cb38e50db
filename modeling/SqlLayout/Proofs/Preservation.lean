import SqlLayout.Proofs.Relayout

/-!
# Formatting preserves tokens

A source without bare bodies is formatted to a text with the same tokens, keywords spelled as the
options say. Only the text of the last token may change, by blanks at its end, since the formatted
text is trimmed and ends in a line feed (`significant_format`). What a layout looks at stays the same
(`Token.outline`), and so the formatted text has no bare bodies either.
-/

namespace SqlLayout

open Text State

/-! ## The last token -/

/-- Whether one token is another one up to blanks at the end of its text. -/
structure Token.Trims (other token : Token) : Prop where
  /-- The kind is the same. -/
  kind : other.kind = token.kind
  /-- A keyword is the same. -/
  keyword : token.kind = .keyword → other = token
  /-- The text is the same without blanks at its end. -/
  text : trimEnd other.text = trimEnd token.text
  /-- The canonical text differs from the spelling for keywords only. -/
  value : other.kind ≠ .keyword → other.value = other.raw

/-- A keyword has no blanks at its end. -/
theorem Token.ReadBefore.trimEnd_keyword {token : Token} {rest : List Char}
    (read : token.ReadBefore rest) (keyword : token.kind = .keyword) :
    trimEnd token.text = token.text := by
  obtain ⟨c, tail, spelled, -, -, blank, -⟩ := read.first (by rw [keyword]; rfl)
  have word := read.isWordChar_of_mem keyword
  refine trimEnd_eq_self fun d member => Bool.eq_false_iff.2 fun isBlank => ?_
  rw [spelled] at member word
  rcases List.mem_cons.1 member with rfl | inside
  · rw [keyword] at blank
    cases (blank isBlank).1
  · have noWord := isWordChar_of_isBlank isBlank
    rw [word d inside] at noWord
    cases noWord

/-- A token that ends a text without blanks at its end, before a line feed, is the same token up to
blanks at its end. -/
theorem Token.ReadBefore.trimmed {token : Token} {rest : List Char} (read : token.ReadBefore rest)
    (visible : token.kind.isLayout = false) (ink : inked token.text ≠ []) :
    ∃ other layout, lexemes (trimEnd token.text ++ ['\n']) = other :: layout ∧
      (∀ gap ∈ layout, gap.isLayout = true) ∧ other.Trims token := by
  obtain ⟨c, tail, made, found, inkFirst⟩ := read.ink_first visible ink
  have spelled : token.text = c :: tail := by rw [made, Token.text_ofText]
  obtain ⟨lost, whole, blank⟩ := trimEnd_append_blanks tail
  have cut : trimEnd token.text = c :: trimEnd tail := by rw [spelled, trimEnd_cons inkFirst]
  have uncut (keyword : token.kind = .keyword) : trimEnd tail = tail := by
    have same := read.trimEnd_keyword keyword
    rw [cut, spelled] at same
    exact (List.cons.inj same).2
  have lineFeed : lexemes ['\n'] = [Token.ofText .newline ['\n']] := lexemes_single rfl
  rw [whole] at found
  rw [cut, List.cons_append]
  rcases Lexeme.read_trimmed found visible blank with kept | swallowed
  · refine ⟨Token.ofText token.kind (c :: trimEnd tail), _, lexemes_of_read kept, ?_, rfl,
      fun keyword => ?_, ?_, fun plain => Token.value_ofText plain _⟩
    · rw [lineFeed]
      simp [Token.isLayout, Kind.isLayout]
    · rw [uncut keyword, ← made]
    · rw [Token.text_ofText, ← cut, trimEnd_trimEnd]
  · refine ⟨Token.ofText token.kind (c :: (trimEnd tail ++ ['\n'])), [],
      lexemes_single swallowed, by simp, rfl, fun keyword => ?_, ?_,
      fun plain => Token.value_ofText plain _⟩
    · have other : (Token.ofText token.kind (c :: (trimEnd tail ++ ['\n']))).ReadBefore [] :=
        ⟨c, _, rfl, by rw [List.append_nil]; exact swallowed⟩
      have word := other.isWordChar_of_mem keyword '\n' (by simp)
      cases word
    · have lineFeed : IsBlankText ['\n'] := inked_eq_nil_iff.1 (by decide)
      rw [Token.text_ofText, ← List.cons_append, trimEnd_append_of_blank lineFeed, ← cut,
        trimEnd_trimEnd]

/-! ## All tokens -/

/-- Whether a token is a lexeme of some source that is neither layout nor blank. -/
structure Token.Legible (token : Token) : Prop where
  /-- The token is read from a source. -/
  read : ∃ rest, token.ReadBefore rest
  /-- The token is no layout. -/
  visible : token.kind.isLayout = false
  /-- The token is not blank. -/
  ink : inked token.text ≠ []

namespace Token.Legible

variable {token : Token} (legible : token.Legible) (options : Options)

include legible

/-- A legible token is shown with a character first that is not blank. -/
theorem first_display : ∃ c rest, token.display options = c :: rest ∧ isBlank c = false := by
  obtain ⟨⟨rest, read⟩, visible, ink⟩ := legible
  obtain ⟨c, tail, spelled, -, -, blank, -⟩ :=
    (read.recast visible options.keywordCase).first visible
  refine ⟨c, tail, spelled, Bool.eq_false_iff.2 fun isBlank => ink ?_⟩
  obtain ⟨operator, rfl⟩ := blank isBlank
  have plain : token.kind ≠ .keyword := by
    change token.kind = .operator at operator
    rw [operator]
    decide
  change (token.shown options.keywordCase).toList = [c] at spelled
  rw [shown_plain _ plain, read.value_eq_raw plain] at spelled
  rw [text, spelled, inked, List.filter_cons_of_neg (by simp [isBlank])]
  rfl

/-- A legible token is shown. -/
theorem shows : token.Shows options := by
  obtain ⟨⟨rest, read⟩, visible, -⟩ := legible
  exact read.shows visible options

/-- What is shown of a legible token is not blank. -/
theorem ink_display : inked (token.display options) ≠ [] := by
  obtain ⟨c, rest, shown, ink⟩ := legible.first_display options
  rw [shown, inked, List.filter_cons_of_pos (by simp [ink])]
  exact List.cons_ne_nil _ _

end Token.Legible

/-- Tokens that are settled before one another are read back from their layout, the last one up to
blanks at its end. -/
theorem significant_ended {options : Options} {front earlier : List Token} {last : Token}
    {pieces : List Piece} (spread : Spread earlier (front ++ [last]) pieces)
    (legible : ∀ token ∈ front ++ [last], token.Legible)
    (linked : (front ++ [last]).IsChain (Linked options)) :
    ∃ other, significant (lexemes (ended options pieces)) =
        front.map (Token.recast options.keywordCase) ++ [other] ∧
      other.Trims (last.recast options.keywordCase) := by
  induction front generalizing earlier pieces with
  | nil =>
    have isLegible := legible last List.mem_cons_self
    obtain ⟨⟨rest, read⟩, visible, -⟩ := id isLegible
    have ink := isLegible.ink_display options
    obtain ⟨gap, layout, -, isLayout, -, cut⟩ := peel_last spread (isLegible.shows options) ink rfl
    obtain ⟨other, behind, again, isBehind, trims⟩ :=
      (read.recast visible options.keywordCase).trimmed visible ink
    change lexemes (trimEnd (last.display options) ++ ['\n']) = _ at again
    refine ⟨other, ?_, trims⟩
    have visibleOther : other.isLayout = false := by
      rw [Token.isLayout, trims.kind]
      exact visible
    rw [cut, again, significant_append, significant_eq_nil isLayout, significant_cons visibleOther,
      significant_eq_nil isBehind]
    rfl
  | cons token front ih =>
    have isLegible := legible token List.mem_cons_self
    obtain ⟨⟨rest, read⟩, visible, -⟩ := id isLegible
    obtain ⟨next, others, split⟩ : ∃ next others, front ++ [last] = next :: others := by
      cases front with
      | nil => exact ⟨_, _, rfl⟩
      | cons next others => exact ⟨_, _, rfl⟩
    rw [List.cons_append, split] at spread linked
    obtain ⟨linkedNext, linkedOthers⟩ := List.isChain_cons_cons.1 linked
    have isNext : next ∈ front ++ [last] := by
      rw [split]
      exact List.mem_cons_self
    have legibleNext := legible next (List.mem_cons_of_mem _ isNext)
    have ink : inked ((next :: others).flatMap (Token.display options)) ≠ [] := by
      rw [List.flatMap_cons, inked_append]
      exact fun none => legibleNext.ink_display options (List.append_eq_nil_iff.1 none).1
    obtain ⟨gap, pieces, layout, -, spreadOthers, isLayout, -, cut⟩ := peel spread
      (isLegible.shows options) (legibleNext.shows options) linkedNext ink
    rw [← split] at spreadOthers linkedOthers
    obtain ⟨other, again, trims⟩ := ih spreadOthers
      (fun other member => legible other (List.mem_cons_of_mem _ member)) linkedOthers
    refine ⟨other, ?_, trims⟩
    have single : significant (lexemes (token.display options)) =
        [token.recast options.keywordCase] := by
      have visibleRecast : (token.recast options.keywordCase).isLayout = false := visible
      rw [Token.display, read.lexemes_shown visible, significant_cons visibleRecast]
      rfl
    rw [cut, significant_append, significant_append, significant_eq_nil isLayout, single, again]
    rfl

/-! ## Plain sources -/

/-- Whether the tokens of a source stay apart in every layout: no body is bare, no operator is a
blank character, and no number touches a dot. -/
structure Plain (source : String) : Prop where
  /-- No body is fused. -/
  bare : fuseBodies (tokenize source) = tokenize source
  /-- No operator is a blank character. -/
  ink : ∀ token ∈ tokenize source, token.kind = .operator → ¬IsBlankText token.text
  /-- No number comes before a dot, and no dot before a number that starts with a digit. -/
  apart : (significant (tokenize source)).IsChain fun token next => token.runsInto next = false

namespace Plain

variable {source : String} (plain : Plain source)

include plain

/-- The lexemes of a plain source have no bare body. -/
theorem fuseBodies_lexemes :
    fuseBodies (lexemes source.toList ++ [endToken]) = lexemes source.toList ++ [endToken] := by
  rw [← unplaced_tokenize, fuseBodies_unplaced, plain.bare]

/-- The significant lexemes of a plain source are legible. -/
theorem legible : ∀ token ∈ significant (lexemes source.toList), token.Legible := by
  intro token member
  obtain ⟨inside, visible⟩ := of_mem_significant member
  obtain ⟨rest, read⟩ := readBefore_of_mem inside
  refine ⟨⟨rest, read⟩, visible, ?_⟩
  obtain ⟨c, tail, spelled, -, -, blank, -⟩ := read.first visible
  have inkFirst : isBlank c = false := by
    refine Bool.eq_false_iff.2 fun isBlank => ?_
    obtain ⟨operator, rfl⟩ := blank isBlank
    have placed : token ∈ (tokenize source).map Token.unplaced := by
      rw [unplaced_tokenize]
      exact List.mem_append_left _ inside
    obtain ⟨original, found, rfl⟩ := List.mem_map.1 placed
    refine plain.ink original found operator fun d isFirst => ?_
    change original.text = [c] at spelled
    rw [spelled] at isFirst
    rwa [List.mem_singleton.1 isFirst]
  rw [spelled, inked, List.filter_cons_of_pos (by simp [inkFirst])]
  exact List.cons_ne_nil _ _

/-- The significant lexemes of a plain source are settled before one another. -/
theorem linked (options : Options) :
    (significant (lexemes source.toList)).IsChain (Linked options) := by
  have placed : (significant (lexemes source.toList ++ [endToken])).IsChain
      fun token next => token.runsInto next = false := by
    rw [← unplaced_tokenize, faithful_unplaced.significant_map, List.isChain_map]
    exact plain.apart
  rw [significant_append] at placed
  exact linked_lexemes (List.nil_append _).symm placed.left_of_append options

/-- The formatted text of a plain source is a layout of its significant lexemes, trimmed. -/
theorem spread (options : Options) :
    ∃ pieces, Spread [] (significant (lexemes source.toList)) pieces ∧
      (format options source).toList = trim (writtenText options pieces) ++ ['\n'] := by
  obtain ⟨pieces, spread, text⟩ := spread_format options source
  rw [plain.fuseBodies_lexemes, written_lexemes] at spread
  exact ⟨pieces, spread, text⟩

/-- Nothing but blanks at the end is trimmed, since the spacing before the first token can be left
out. -/
theorem ended_format (options : Options) {first : Token} {others : List Token}
    (split : significant (lexemes source.toList) = first :: others) :
    ∃ pieces, Spread [] (first :: others) pieces ∧
      (format options source).toList = ended options pieces := by
  obtain ⟨pieces, spread, text⟩ := plain.spread options
  rw [split] at spread
  cases spread with
  | word parted spread =>
    rename_i gap behind
    have start : Parted [] [] first :=
      { blank := by simp
        apart := nofun
        body := fun header => by obtain ⟨_, _, _, none, -⟩ := header; cases none
        closing := nofun }
    refine ⟨[] ++ .word first :: behind, Spread.word start spread, ?_⟩
    have legible := plain.legible first (by rw [split]; exact List.mem_cons_self)
    obtain ⟨c, rest, shown, ink⟩ := legible.first_display options
    rw [text, writtenText_append, trim_append_of_blank (blank_writtenText options parted.blank),
      writtenText_word, ← Token.display, shown, List.cons_append, trim_cons ink, List.nil_append,
      ended, writtenText_word, ← Token.display, shown]
    rfl

/-- The significant lexemes of a formatted text are those of its source as they are shown, the last one
up to blanks at its end. -/
theorem significant_format (options : Options) {front : List Token} {last : Token}
    (split : significant (lexemes source.toList) = front ++ [last]) :
    ∃ other, significant (lexemes (format options source).toList) =
        front.map (Token.recast options.keywordCase) ++ [other] ∧
      other.Trims (last.recast options.keywordCase) := by
  obtain ⟨first, others, same⟩ : ∃ first others, front ++ [last] = first :: others :=
    List.exists_cons_of_ne_nil (by simp)
  obtain ⟨pieces, spread, text⟩ := plain.ended_format options (split.trans same)
  rw [← same] at spread
  have legible := plain.legible
  have linked := plain.linked options
  rw [split] at legible linked
  rw [text]
  exact significant_ended spread legible linked

/-- A source without significant lexemes is formatted to an empty line. -/
theorem format_of_none (options : Options) (none : significant (lexemes source.toList) = []) :
    (format options source).toList = ['\n'] := by
  obtain ⟨pieces, spread, text⟩ := plain.spread options
  rw [none] at spread
  have cleared : trim (writtenText options pieces) = [] := by
    have blank : inked (writtenText options pieces) = [] := inked_writtenText options spread
    rw [trim, List.dropWhile_eq_nil_iff.2 (inked_eq_nil_iff.1 blank)]
    rfl
  rw [text, cleared]
  rfl

end Plain

/-! ## Outlines -/

namespace Token

/-- What a layout looks at in a token: the kind, the canonical text of a keyword, and the first
character of any other token. -/
def outline (token : Token) : Token :=
  if token.kind = .keyword then ⟨.keyword, token.value, token.value, ⟨.first, .first⟩⟩
  else ofText token.kind (token.value.toList.take 1)

/-- The outline of a keyword. -/
theorem outline_keyword {token : Token} (keyword : token.kind = .keyword) :
    token.outline = ⟨.keyword, token.value, token.value, ⟨.first, .first⟩⟩ :=
  if_pos keyword

/-- The outline of any other token. -/
theorem outline_plain {token : Token} (plain : token.kind ≠ .keyword) :
    token.outline = ofText token.kind (token.value.toList.take 1) :=
  if_neg plain

/-- An outline keeps the kind. -/
theorem kind_outline (token : Token) : token.outline.kind = token.kind := by
  by_cases keyword : token.kind = .keyword
  · rw [outline_keyword keyword, keyword]
  · rw [outline_plain keyword, kind_ofText]

end Token

/-- A layout looks at outlines only. -/
theorem faithful_outline : Faithful Token.outline where
  kind := Token.kind_outline
  value := fun token keyword => by rw [Token.outline_keyword keyword]
  compound := by
    intro first others keyword keywords
    have all : ∀ part ∈ first :: others, part.outline = ⟨.keyword, part.value, part.value, ⟨.first, .first⟩⟩ := by
      intro part member
      rcases List.mem_cons.1 member with rfl | inside
      · exact Token.outline_keyword keyword
      · exact Token.outline_keyword (keywords part inside)
    have values : (first.outline :: others.map Token.outline).map Token.value =
        (first :: others).map Token.value := by
      rw [← List.map_cons, List.map_map]
      exact List.map_congr_left fun part member => by rw [Function.comp_apply, all part member]
    have raws : (first.outline :: others.map Token.outline).map Token.raw =
        (first :: others).map Token.value := by
      rw [← List.map_cons, List.map_map]
      exact List.map_congr_left fun part member => by rw [Function.comp_apply, all part member]
    have spans : ∀ part ∈ first :: others, part.outline.span = ⟨.first, .first⟩ := by
      intro part member
      rw [all part member]
    have last : ((others.map Token.outline).getLast?.getD first.outline).span = ⟨.first, .first⟩ := by
      rw [List.getLast?_map, Option.getD_map]
      refine spans _ ?_
      cases found : others.getLast? with
      | none => exact List.mem_cons_self
      | some part => exact List.mem_cons_of_mem _ (List.mem_of_getLast? found)
    rw [Token.outline_keyword rfl, Token.compound, Token.compound, values, raws, last,
      spans first List.mem_cons_self]
  startsLine := by
    intro token
    by_cases keyword : token.kind = .keyword
    · rw [Token.outline_keyword keyword]
      rfl
    · rw [Token.outline_plain keyword, Token.startsLine, Token.value_ofText keyword,
        String.toList_ofList, Token.startsLine]
      cases token.value.toList <;> rfl

/-- A token as it is shown has the outline of the token. -/
theorem Token.outline_recast (keywordCase : KeywordCase) (token : Token) :
    (token.recast keywordCase).outline = token.outline :=
  rfl

/-- The canonical text of a token as it is shown differs from the spelling for keywords only. -/
theorem Token.value_recast {keywordCase : KeywordCase} (token : Token)
    (plain : token.kind ≠ .keyword) :
    (token.recast keywordCase).value = (token.recast keywordCase).raw :=
  (shown_plain keywordCase plain).symm

/-- Blanks at the end of a token do not matter for its outline. -/
theorem Token.Trims.outline {other token : Token} (trims : other.Trims token)
    (value : token.kind ≠ .keyword → token.value = token.raw) (ink : inked token.text ≠ []) :
    other.outline = token.outline := by
  by_cases keyword : token.kind = .keyword
  · rw [trims.keyword keyword]
  · have plain : other.kind ≠ .keyword := by rwa [trims.kind]
    have inkOther : inked other.text ≠ [] := by
      rwa [← inked_trimEnd, trims.text, inked_trimEnd]
    have first : other.text.head? = token.text.head? := by
      rw [← head?_trimEnd inkOther [], ← head?_trimEnd ink [], trims.text]
    have taken : other.text.take 1 = token.text.take 1 := by
      rw [List.take_one, List.take_one, first]
    rw [outline_plain keyword, outline_plain plain, trims.kind, value keyword, trims.value plain]
    exact congrArg _ taken

/-- Keywords are fused alike as they are shown. -/
theorem respects_recast (keywordCase : KeywordCase) : Respects (Token.recast keywordCase) where
  kind := fun _ => rfl
  value := fun _ _ => rfl
  compound := by
    intro first others keyword keywords
    have all : ∀ part ∈ first :: others, part.kind = .keyword := by
      intro part member
      rcases List.mem_cons.1 member with rfl | inside
      · exact keyword
      · exact keywords part inside
    have stop : (others.getLast?.getD first).span.stop = ((others.map
        (Token.recast keywordCase)).getLast?.getD (first.recast keywordCase)).span.stop := by
      rw [List.getLast?_map]
      cases others.getLast? <;> rfl
    have values : (first.recast keywordCase :: others.map (Token.recast keywordCase)).map
        Token.value = (first :: others).map Token.value := by
      rw [← List.map_cons, List.map_map]
      rfl
    have raws : (first.recast keywordCase :: others.map (Token.recast keywordCase)).map
        Token.raw = (first :: others).map (Token.shown keywordCase) := by
      rw [← List.map_cons, List.map_map]
      rfl
    rw [Token.recast, shown_compound keywordCase all, Token.compound, Token.compound, values, raws,
      ← stop]
    rfl

namespace Plain

variable {source : String} (plain : Plain source) (options : Options)

include plain

/-- A formatted text has the outlines of its source. -/
theorem outline_format :
    (significant (lexemes (format options source).toList)).map Token.outline =
      (significant (lexemes source.toList)).map Token.outline := by
  rcases List.eq_nil_or_concat (significant (lexemes source.toList)) with none | ⟨front, last, split⟩
  · have lineFeed : lexemes ['\n'] = [Token.ofText .newline ['\n']] := lexemes_single rfl
    rw [plain.format_of_none options none, none, lineFeed]
    rfl
  · rw [List.concat_eq_append] at split
    obtain ⟨other, again, trims⟩ := plain.significant_format options split
    have legible := plain.legible last (by rw [split]; simp)
    have same : other.outline = last.outline := by
      rw [← last.outline_recast options.keywordCase]
      exact trims.outline last.value_recast (legible.ink_display options)
    rw [again, split, List.map_append, List.map_append, List.map_map]
    simp only [List.map_cons, List.map_nil, same]
    rfl

/-- A formatted text has no bare body. -/
theorem fuseBodies_format :
    fuseBodies (lexemes (format options source).toList ++ [endToken]) =
      lexemes (format options source).toList ++ [endToken] := by
  have bare := (fuseBodies_eq_self_iff _).1 plain.fuseBodies_lexemes
  refine (fuseBodies_eq_self_iff _).2 ?_
  rw [← faithful_outline.hasRoutine_map, significant_append] at bare ⊢
  rw [List.map_append, plain.outline_format options, ← List.map_append]
  exact bare

/-- The fused tokens of a formatted text are those of its source as they are shown, the last one up to
blanks at its end. -/
theorem fuseKeywords_format : fuseKeywords (significant (lexemes source.toList)) = [] ∧
      fuseKeywords (significant (lexemes (format options source).toList)) = [] ∨
    ∃ front last other, fuseKeywords (significant (lexemes source.toList)) = front ++ [last] ∧
      fuseKeywords (significant (lexemes (format options source).toList)) =
        front.map (Token.recast options.keywordCase) ++ [other] ∧
      other.Trims (last.recast options.keywordCase) := by
  rcases List.eq_nil_or_concat (significant (lexemes source.toList)) with none | ⟨front, last, split⟩
  · have lineFeed : lexemes ['\n'] = [Token.ofText .newline ['\n']] := lexemes_single rfl
    have noneToo : significant (lexemes ['\n']) = [] := by
      rw [lineFeed]
      rfl
    rw [plain.format_of_none options none, none, noneToo, fuseKeywords]
    exact Or.inl ⟨rfl, rfl⟩
  · rw [List.concat_eq_append] at split
    obtain ⟨other, again, trims⟩ := plain.significant_format options split
    rw [split, again]
    by_cases keyword : last.kind = .keyword
    · have all : front.map (Token.recast options.keywordCase) ++ [other] =
          (front ++ [last]).map (Token.recast options.keywordCase) := by
        rw [trims.keyword keyword, List.map_append]
        rfl
      rw [all, (respects_recast options.keywordCase).fuseKeywords_map]
      rcases List.eq_nil_or_concat (fuseKeywords (front ++ [last])) with none | ⟨parts, end', same⟩
      · rw [none]
        exact Or.inl ⟨rfl, rfl⟩
      · rw [same, List.concat_eq_append, List.map_append]
        exact Or.inr ⟨parts, end', _, rfl, rfl, rfl, fun _ => rfl, rfl, end'.value_recast⟩
    · have visible : last.isLayout = false := (plain.legible last (by rw [split]; simp)).visible
      have visibleOther : other.isLayout = false := by
        rw [Token.isLayout, trims.kind]
        exact visible
      have plainOther : other.kind ≠ .keyword := by
        rw [trims.kind]
        exact keyword
      rw [fuseKeywords_append visible keyword, fuseKeywords_append visibleOther plainOther,
        (respects_recast options.keywordCase).fuseKeywords_map, fuseKeywords]
      exact Or.inr ⟨_, last, other, rfl, rfl, trims⟩

end Plain

/-! ## Signatures -/

/-- The kinds and texts of the fused tokens of a source, without layout and the end. -/
def signature (text : Token → String) (source : String) : List (Kind × String) :=
  ((fuse (tokenize source)).filter fun token => !token.isLayout && token.kind != .eof).map
    fun token => (token.kind, text token)

/-- A list of texts without blanks at the end of the last one. -/
def trimLast : List (Kind × String) → List (Kind × String)
  | [] => []
  | [(kind, text)] => [(kind, String.ofList (trimEnd text.toList))]
  | first :: others => first :: trimLast others

/-- Only the last text is trimmed. -/
theorem trimLast_append (front : List (Kind × String)) (kind : Kind) (text : String) :
    trimLast (front ++ [(kind, text)]) =
      front ++ [(kind, String.ofList (trimEnd text.toList))] := by
  induction front with
  | nil => rfl
  | cons first front ih =>
    cases front with
    | nil => rfl
    | cons second front =>
      rw [List.cons_append, List.cons_append, trimLast, ← List.cons_append, ih]
      · rfl
      · simp

/-- The tokens of a closed list without layout and the end are those that are written. -/
theorem Closed.filter_eq {tokens : List Token} (closed : Closed tokens) :
    (tokens.filter fun token => !token.isLayout && token.kind != .eof) = written tokens := by
  obtain ⟨last, isEnd, split⟩ := closed.significant_eq
  have going : ∀ token ∈ written tokens, (token.kind != .eof) = true := by
    intro token member
    simpa using (of_mem_written member).2.2
  have swap : (tokens.filter fun token => !token.isLayout && token.kind != .eof) =
      (significant tokens).filter fun token => token.kind != .eof := by
    rw [significant, List.filter_filter]
    congr 1
    funext token
    exact Bool.and_comm _ _
  rw [swap, split, List.filter_append, List.filter_eq_self.2 going]
  simp [isEnd]

/-- The signature of a source without bare bodies is that of its significant lexemes, fused. -/
theorem signature_eq {text : Token → String} (same : ∀ token, text token.unplaced = text token)
    {source : String}
    (bare : fuseBodies (lexemes source.toList ++ [endToken]) = lexemes source.toList ++ [endToken]) :
    signature text source = (fuseKeywords (significant (lexemes source.toList))).map
      fun token => (token.kind, text token) := by
  have closed := closed_lexemes source.toList
  have placed : signature text source = (((fuse (tokenize source)).map Token.unplaced).filter
      fun token => !token.isLayout && token.kind != .eof).map
        fun token => (token.kind, text token) := by
    rw [signature, List.filter_map, List.map_map]
    refine List.map_congr_left fun token _ => ?_
    rw [Function.comp_apply, same]
    rfl
  rw [placed, fuse_unplaced, bare, closed.fuseKeywords.filter_eq, written_fuseKeywords closed,
    written_lexemes]

/-- Tokens as they are shown, the last one up to blanks at its end, have the same trimmed texts. -/
theorem trimLast_recast {text : Token → String} {keywordCase : KeywordCase} {front : List Token}
    {last other : Token} (same : ∀ token ∈ front, text (token.recast keywordCase) = text token)
    (kind : other.kind = last.kind)
    (sameLast : trimEnd (text other).toList = trimEnd (text last).toList) :
    trimLast ((front.map (Token.recast keywordCase) ++ [other]).map
        fun token => (token.kind, text token)) =
      trimLast ((front ++ [last]).map fun token => (token.kind, text token)) := by
  have texts : (front.map (Token.recast keywordCase)).map (fun token => (token.kind, text token)) =
      front.map fun token => (token.kind, text token) := by
    rw [List.map_map]
    refine List.map_congr_left fun token member => ?_
    rw [Function.comp_apply, same token member]
    rfl
  rw [List.map_append, List.map_append, texts, List.map_singleton, List.map_singleton,
    trimLast_append, trimLast_append, kind, sameLast]

/-- Formatting preserves the tokens of a plain source: their kinds and canonical texts, up to blanks at
the end of the last one. With keywords as they are, it preserves the spellings as well. -/
theorem format_preserves_tokens (options : Options) {source : String} (plain : Plain source) :
    trimLast (signature Token.value (format options source)) =
        trimLast (signature Token.value source) ∧
      (options.keywordCase = .preserve →
        trimLast (signature Token.raw (format options source)) =
          trimLast (signature Token.raw source)) := by
  have before {text : Token → String} (same : ∀ token, text token.unplaced = text token) :=
    signature_eq same plain.fuseBodies_lexemes
  have after {text : Token → String} (same : ∀ token, text token.unplaced = text token) :=
    signature_eq same (plain.fuseBodies_format options)
  rw [before fun _ => rfl, after fun _ => rfl, before fun _ => rfl, after fun _ => rfl]
  rcases plain.fuseKeywords_format options with
    ⟨none, noneToo⟩ | ⟨front, last, other, split, again, trims⟩
  · rw [none, noneToo]
    exact ⟨rfl, fun _ => rfl⟩
  have value : trimEnd other.value.toList = trimEnd last.value.toList := by
    by_cases keyword : last.kind = .keyword
    · rw [trims.keyword keyword]
      rfl
    · have text := trims.text
      rw [Token.text, ← trims.value (by rw [trims.kind]; exact keyword)] at text
      rw [text, Token.text, ← last.value_recast keyword]
      rfl
  have genuine : ∀ token ∈ front ++ [last], token.Genuine := by
    rw [← split]
    refine genuine_fuseKeywords fun token member => ?_
    obtain ⟨rest, read⟩ := (plain.legible token member).read
    exact read.genuine
  rw [split, again]
  refine ⟨trimLast_recast (fun _ _ => rfl) trims.kind value, fun preserve => ?_⟩
  have kept : ∀ token ∈ front ++ [last], (token.recast options.keywordCase).raw = token.raw := by
    intro token member
    rw [preserve]
    by_cases keyword : token.kind = .keyword
    · exact if_pos keyword
    · exact (Token.shown_plain .preserve keyword).trans ((genuine token member).value keyword)
  refine trimLast_recast (fun token member => kept token (List.mem_append_left _ member)) trims.kind ?_
  have text := trims.text
  rw [Token.text, Token.text, kept last (by simp)] at text
  exact text

/-- A query with a qualified name, a comment mark inside a string, a compound keyword and a comment at
its end is plain. -/
theorem plain_query : Plain "select a.b, 'x -- y' from t group  by 1 -- end \t" where
  bare := by decide +kernel
  ink := by decide +kernel
  apart := by decide +kernel

/-- Formatting the query with keywords as they are preserves the spellings of its tokens. -/
theorem format_preserves_tokens_query :
    Plain "select a.b, 'x -- y' from t group  by 1 -- end \t" ∧
    trimLast (signature Token.raw (format ⟨2, .preserve, .leading⟩
        "select a.b, 'x -- y' from t group  by 1 -- end \t")) =
      trimLast (signature Token.raw "select a.b, 'x -- y' from t group  by 1 -- end \t") :=
  ⟨plain_query, (format_preserves_tokens ⟨2, .preserve, .leading⟩ plain_query).2 rfl⟩

end SqlLayout
