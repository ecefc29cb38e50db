import SqlLayout.Proofs.BodyReadback

/-!
# Bodies survive formatting

A formatted text has the bodies of its source, each before a semicolon where it was before one, unless
a body before a semicolon ends in a comment (`fusedBodies_format_iff`). The text is read from its
front: a token that starts no routine starts none again (`fusedBodies_peel`), and neither does a header
whose body is blank (`fusedBodies_blank`). Behind a header that is read back (`Announces`) the text of
a body is fused again (`fusedBodies_separate`, `fusedBodies_last`), but a comment at its end goes on
with the semicolon and what is behind it (`fusedBodies_absorbed`).
-/

namespace SqlLayout

open Text State

/-! ## Blanks before a text -/

/-- A token that starts with a blank character is blank, and no keyword. -/
theorem Token.ReadBefore.blank_of_first {token : Token} {rest : List Char}
    (read : token.ReadBefore rest) {c : Char} {tail : List Char} (spelled : token.text = c :: tail)
    (blank : isBlank c = true) : IsBlankText token.text ∧ token.kind ≠ .keyword := by
  cases layout : token.isLayout with
  | true =>
    refine ⟨read.blank_of_isLayout layout, ?_⟩
    rcases kind_of_isLayout layout with kind | kind <;> rw [kind] <;> decide
  | false =>
    obtain ⟨d, others, same, -, -, single, -⟩ := read.first layout
    obtain ⟨rfl, rfl⟩ := List.cons.inj (spelled.symm.trans same)
    obtain ⟨operator, rfl⟩ := single blank
    refine ⟨?_, by rw [operator]; decide⟩
    rw [spelled]
    exact fun e member => by rwa [List.mem_singleton.1 member]

/-- Blanks before a text add no body. -/
theorem fusedBodies_dropWhile_isBlank (text : List Char) :
    fusedBodies (lexemes (text.dropWhile isBlank) ++ [endToken]) =
      fusedBodies (lexemes text ++ [endToken]) := by
  fun_induction lexemes text with
  | case1 => rw [List.dropWhile_nil, lexemes]
  | case2 c source ih =>
    cases blank : isBlank c with
    | false => rw [List.dropWhile_cons_of_neg (by simp [blank]), lexemes]
    | true =>
      obtain ⟨token, made⟩ : ∃ token, Token.ofText (Lexeme.read c source).kind
        (c :: (Lexeme.read c source).tail) = token := ⟨_, rfl⟩
      have split : lexemes (c :: source) = [] ++ token :: lexemes (Lexeme.read c source).rest := by
        rw [lexemes, made]
        rfl
      have spelled : token.text = c :: (Lexeme.read c source).tail := by
        rw [← made, Token.text_ofText]
      obtain ⟨cleared, plain⟩ := (readBefore_of_split split).blank_of_first spelled blank
      have whole : c :: source = token.text ++ (Lexeme.read c source).rest := by
        rw [spelled, List.cons_append, Lexeme.tail_append_rest]
      have other : token.isKeyword "LANGUAGE" = false := by
        rw [Token.isKeyword, beq_false_of_ne plain, Bool.false_and]
      rw [made, whole, dropWhile_append_of_blank cleared, ih, List.cons_append,
        fusedBodies_cons_none (bodyAt?_eq_none other _)]

/-- The bodies of a formatted text are those of the text whose end only is trimmed. -/
theorem fusedBodies_trim (text : List Char) :
    fusedBodies (lexemes (trim text ++ ['\n']) ++ [endToken]) =
      fusedBodies (lexemes (trimEnd text ++ ['\n']) ++ [endToken]) := by
  by_cases blank : trimEnd text = []
  · rw [trim, trimEnd_dropWhile, blank]
    rfl
  · have kept : (trimEnd text).dropWhile isBlank ≠ [] := by
      intro none
      refine blank ?_
      rw [← trimEnd_trimEnd]
      exact trimEnd_eq_nil_iff.2 (List.dropWhile_eq_nil_iff.1 none)
    have front : (trimEnd text ++ ['\n']).dropWhile isBlank = trim text ++ ['\n'] := by
      rw [List.dropWhile_append, if_neg (by simpa using kept), trim, trimEnd_dropWhile]
    rw [← fusedBodies_dropWhile_isBlank (trimEnd text ++ ['\n']), front]

/-! ## Headers -/

/-- A header takes three tokens behind its first. -/
theorem startsRoutine_take (token : Token) (tokens : List Token) :
    startsRoutine (token :: tokens.take 3) = startsRoutine (token :: tokens) := by
  rcases tokens with - | ⟨name, - | ⟨mark, - | ⟨first, rest⟩⟩⟩ <;> rfl

/-- A header does not take the end of a statement. -/
theorem startsRoutine_append (token : Token) (tokens : List Token) {last : Token}
    (whole : last.kind.isWholeBody = true) :
    startsRoutine (token :: (tokens ++ [last])) = startsRoutine (token :: tokens) := by
  rcases tokens with - | ⟨name, - | ⟨mark, - | ⟨first, rest⟩⟩⟩
  · rfl
  · rfl
  · simp [startsRoutine, whole]
  · rfl

section Peel

variable {options : Options} {token : Token} {entries : List (Token × Bool)} {earlier : List Token}
  {pieces : List Piece}

/-- A token that starts no routine of a source starts none in its layout. -/
theorem fusedBodies_peel (spread : Spread earlier (token :: entries.map Prod.fst) pieces)
    (lexed : Lexed (token, false)) (lexedNext : ∀ entry ∈ entries.take 3, Lexed entry)
    (chain : ((token, false) :: entries).IsChain (Threaded options))
    (none : startsRoutine (token :: entries.map Prod.fst) = false) :
    ∃ later, Spread (token :: earlier) (entries.map Prod.fst) later ∧
      fusedBodies (lexemes (ended options pieces) ++ [endToken]) =
        fusedBodies (lexemes (ended options later) ++ [endToken]) := by
  by_cases blank : inked ((token :: entries.map Prod.fst).flatMap (Token.display options)) = []
  · have cleared := peel_blank spread blank
    cases spread with
    | word parted spread =>
      rename_i gap later
      refine ⟨later, spread, ?_⟩
      rw [List.flatMap_cons, inked_append, List.append_eq_nil_iff] at blank
      rw [cleared, peel_blank spread blank.2]
  · obtain ⟨layout, other, behind, later, isLayout, same, spreadLater, cut, remains⟩ :=
      peel_token spread lexed chain blank
    refine ⟨later, spreadLater, ?_⟩
    have look := outline_ended 3 spreadLater (List.isChain_cons.1 chain).2 lexedNext
    have unfound : bodyAt? other (behind ++ [endToken]) = Option.none := by
      rw [← Option.not_isSome_iff_eq_none, isSome_bodyAt?]
      intro starts
      rw [significant_append, remains.significant_eq] at starts
      have found := startsRoutine_of_outline same look starts []
      rw [List.append_nil, none] at found
      cases found
    rw [cut, List.append_assoc, fusedBodies_layout isLayout, List.cons_append,
      fusedBodies_cons_none unfound, remains.fusedBodies_eq]

end Peel

section Source

variable {source : List Char} {options : Options} {token : Token} {rest : List Token}
  {earlier : List Token} {pieces : List Piece}

/-- A token that starts no routine is followed by no header among the tokens that are written. -/
theorem startsRoutine_markedWritten (suffix : token :: rest <:+ lexemes source ++ [endToken])
    (going : token.kind ≠ .eof) (found : bodyAt? token rest = none) :
    startsRoutine (token :: (markedWritten rest).map Prod.fst) = false := by
  obtain ⟨last, isEnd, same⟩ := significant_of_suffix suffix going
  have starts := isSome_bodyAt? token rest
  have first : ((markedWritten rest).map Prod.fst).take 3 = (written rest).take 3 := by
    rw [← List.map_take, take_markedWritten, List.map_map]
    exact List.map_id _
  rw [found, same, startsRoutine_append token _ (by rw [isEnd]; rfl), ← startsRoutine_take, ← first,
    startsRoutine_take] at starts
  exact starts.symm

/-- A header with nothing but a semicolon behind it starts no routine. -/
theorem startsRoutine_header {language name mark : Token} {before between tokens : List Token}
    (isHeader : IsHeader language before name between mark)
    (next : ∀ token ∈ tokens.head?, token.kind = .semicolon) :
    startsRoutine (language :: name :: mark :: tokens) = false ∧
      startsRoutine (name :: mark :: tokens) = false ∧ startsRoutine (mark :: tokens) = false := by
  have isMark := isHeader.mark
  rw [Token.isKeyword, Bool.and_eq_true, beq_iff_eq, beq_iff_eq] at isMark
  have other : mark.isKeyword "LANGUAGE" = false := by
    simp [Token.isKeyword, isMark.2]
  rcases tokens with - | ⟨first, - | ⟨second, - | ⟨third, behind⟩⟩⟩
  · exact ⟨rfl, rfl, rfl⟩
  · have kind := next first rfl
    exact ⟨by simp [startsRoutine, kind, Kind.isWholeBody], rfl, rfl⟩
  · have kind := next first rfl
    exact ⟨by simp [startsRoutine, kind, Kind.isWholeBody],
      by simp [startsRoutine, Token.isKeyword, kind], rfl⟩
  · have kind := next first rfl
    exact ⟨by simp [startsRoutine, kind, Kind.isWholeBody],
      by simp [startsRoutine, Token.isKeyword, kind], by simp [startsRoutine, other]⟩

/-! ## Blank bodies -/

/-- A header before a blank body is read back as no header. -/
theorem fusedBodies_blank {header body after : List Token}
    (found : bodyAt? token rest = some (header, body, after))
    (suffix : token :: rest <:+ lexemes source ++ [endToken]) (blank : bodyToken body = none)
    (spread : Spread earlier ((markedWritten (token :: rest)).map Prod.fst) pieces)
    (chain : (markedWritten (token :: rest)).IsChain (Threaded options)) :
    ∃ before later, Spread before ((markedWritten after).map Prod.fst) later ∧
      fusedBodies (lexemes (ended options pieces) ++ [endToken]) =
        fusedBodies (lexemes (ended options later) ++ [endToken]) := by
  obtain ⟨before, name, between, mark, isHeader, rfl, -⟩ := bodyAt?_eq_some found
  have lexed := lexed_markedWritten suffix
  have lexedAfter := lexed_markedWritten (suffix_after found suffix)
  obtain ⟨noLanguage, noName, noMark⟩ :=
    startsRoutine_header isHeader (semicolon_of_written_after found suffix)
  rw [markedWritten_cons_some found, isHeader.significant_eq, blank] at spread chain lexed
  have ofHeader {entry : Token × Bool}
      (member : entry ∈ [(token, false), (name, false), (mark, false)]) : Lexed entry :=
    lexed entry member
  have shorter (count : Nat) (fewer : count ≤ 3) :
      ∀ entry ∈ (markedWritten after).take count, Lexed entry :=
    fun entry member => lexedAfter entry (List.take_subset_take_left _ fewer member)
  obtain ⟨first, spreadName, sameFirst⟩ := fusedBodies_peel spread (ofHeader (by simp))
    (List.forall_mem_cons.2 ⟨ofHeader (by simp), List.forall_mem_cons.2 ⟨ofHeader (by simp),
      shorter 1 (by decide)⟩⟩) chain noLanguage
  obtain ⟨second, spreadMark, sameSecond⟩ := fusedBodies_peel spreadName (ofHeader (by simp))
    (List.forall_mem_cons.2 ⟨ofHeader (by simp), shorter 2 (by decide)⟩)
    (List.isChain_cons.1 chain).2 noName
  obtain ⟨third, spreadAfter, sameThird⟩ := fusedBodies_peel spreadMark (ofHeader (by simp))
    (shorter 3 (by decide)) (List.isChain_cons.1 (List.isChain_cons.1 chain).2).2 noMark
  exact ⟨_, third, spreadAfter, sameFirst.trans (sameSecond.trans sameThird)⟩

/-! ## Headers of bodies -/

/-- Whether tokens are a header: with a bare body behind them they add this body. -/
def Announces (header : List Token) : Prop :=
  ∀ body after, Bare body → (∀ next ∈ after.head?, next.kind.endsStatement = true) →
    fusedBodies (header ++ (body ++ after)) =
      (bodyToken body).toList.map (fun made => (made.value, semicolonAt after)) ++ fusedBodies after

/-- A header behind layout announces a body. -/
theorem announces_header {layout front back : List Token} {language name mark : Token}
    (isLayout : ∀ gap ∈ layout, gap.isLayout = true)
    (isHeader : IsHeader language front name back mark) :
    Announces (layout ++ language :: (front ++ name :: (back ++ [mark]))) := by
  intro body after bare ends
  have flat : layout ++ language :: (front ++ name :: (back ++ [mark])) ++ (body ++ after) =
      layout ++ language :: (front ++ name :: (back ++ mark :: (body ++ after))) := by simp
  rw [flat, fusedBodies_layout isLayout,
    fusedBodies_cons_some (bodyAt?_of_bare isHeader bare ends)]

/-- A header before tokens that are not all blank is read back. -/
theorem peel_header {name mark : Token} {before between : List Token}
    {entries : List (Token × Bool)} (isHeader : IsHeader token before name between mark)
    (lexed : ∀ entry ∈ [(token, false), (name, false), (mark, false)], Lexed entry)
    (spread : Spread earlier
      (((token, false) :: (name, false) :: (mark, false) :: entries).map Prod.fst) pieces)
    (chain : ((token, false) :: (name, false) :: (mark, false) :: entries).IsChain
      (Threaded options))
    (ink : inked ((entries.map Prod.fst).flatMap (Token.display options)) ≠ []) :
    ∃ header later, Announces header ∧
      Spread (mark :: name :: token :: earlier) (entries.map Prod.fst) later ∧
      lexemes (ended options pieces) = header ++ lexemes (ended options later) := by
  have lexedName := lexed (name, false) (by simp)
  have lexedMark := lexed (mark, false) (by simp)
  have inkMark : inked ((((mark, false) :: entries).map Prod.fst).flatMap
      (Token.display options)) ≠ [] :=
    lexedMark.ink (by rw [Token.kind_of_isKeyword isHeader.mark]; decide) _ options
  have inkName : inked ((((name, false) :: (mark, false) :: entries).map Prod.fst).flatMap
      (Token.display options)) ≠ [] := by
    refine lexedName.ink (fun operator => ?_) _ options
    have names := isHeader.names
    rw [operator] at names
    cases names
  have chainName := (List.isChain_cons.1 chain).2
  obtain ⟨layout, first, isLayout, spreadName, cut⟩ :=
    peel_word spread (lexed (token, false) (by simp)) chain inkName
  obtain ⟨front, second, isFront, spreadMark, cutName⟩ :=
    peel_word spreadName lexedName chainName inkMark
  obtain ⟨back, third, isBack, spreadBody, cutMark⟩ :=
    peel_word spreadMark lexedMark (List.isChain_cons.1 chainName).2 ink
  have again : IsHeader (token.recast options.keywordCase) front
      (name.recast options.keywordCase) back (mark.recast options.keywordCase) :=
    ⟨isHeader.language, isFront, isHeader.names, isBack, isHeader.mark⟩
  refine ⟨_, third, announces_header isLayout again, spreadBody, ?_⟩
  rw [cut, cutName, cutMark]
  simp

/-! ## Texts of bodies -/

/-- A body with a text becomes a token with this text. -/
theorem bodyToken_value {body : List Token} (nonempty : bodyText body ≠ "") :
    (bodyToken body).map Token.value = some (bodyText body) := by
  cases body with
  | nil => exact absurd rfl nonempty
  | cons first others => rw [bodyToken_cons, if_neg nonempty]; rfl

/-- The text of a body has no blanks at its end, and no spaces and tabs at its front. -/
theorem bodyText_trimmed {body : List Token} (nonempty : bodyText body ≠ "") :
    trimEnd (bodyText body).toList = (bodyText body).toList ∧
      (bodyText body).toList.dropWhile isGap = (bodyText body).toList := by
  have ink := ink_of_bodyText nonempty
  obtain ⟨text, same⟩ : ∃ text, (bodyText body).toList = text := ⟨_, rfl⟩
  have made : (trimEnd (rawText body)).dropWhile isGap = text := by
    rw [← same, bodyText, String.toList_ofList]
    rfl
  rw [same] at ink ⊢
  constructor
  · have whole := trimEnd_trimEnd (rawText body)
    rw [← @List.takeWhile_append_dropWhile _ isGap (trimEnd (rawText body)), made,
      trimEnd_append_ink _ ink] at whole
    exact List.append_cancel_left whole
  · refine dropWhile_of_head? fun c first => ?_
    have stopped := List.head?_dropWhile_not isGap (trimEnd (rawText body))
    rw [made, Option.mem_def.1 first] at stopped
    exact stopped

/-- The text of a body, with spaces before it and blanks behind it, is the text of a body. -/
theorem bodyText_again {body tokens : List Token} {gap blanks : List Char}
    (nonempty : bodyText body ≠ "") (gapped : ∀ c ∈ gap, isGap c = true)
    (blank : IsBlankText blanks)
    (spelled : rawText tokens = gap ++ ((bodyText body).toList ++ blanks)) :
    bodyText tokens = bodyText body := by
  obtain ⟨trimmed, uncut⟩ := bodyText_trimmed nonempty
  have text : trimEnd (rawText tokens) = gap ++ (bodyText body).toList := by
    rw [spelled, ← List.append_assoc, trimEnd_append_of_blank blank,
      trimEnd_append_ink _ (ink_of_bodyText nonempty), trimmed]
  have front : (trimEnd (rawText tokens)).dropWhile isGap = (bodyText body).toList := by
    rw [text, List.dropWhile_append_of_pos gapped, uncut]
  change String.ofList ((trimEnd (rawText tokens)).dropWhile isGap) = bodyText body
  rw [front, String.ofList_toList]

/-- Behind a header, the text of a body is fused again. -/
theorem Announces.again {header body tokens after : List Token} {gap blanks : List Char}
    (announces : Announces header) (bare : Bare tokens)
    (ends : ∀ next ∈ after.head?, next.kind.endsStatement = true)
    (nonempty : bodyText body ≠ "") (gapped : ∀ c ∈ gap, isGap c = true)
    (blank : IsBlankText blanks)
    (spelled : rawText tokens = gap ++ ((bodyText body).toList ++ blanks)) :
    fusedBodies (header ++ (tokens ++ after)) =
      (bodyText body, semicolonAt after) :: fusedBodies after := by
  have text := bodyText_again nonempty gapped blank spelled
  obtain ⟨made, isMade, value⟩ := Option.map_eq_some_iff.1
    (bodyToken_value (by rwa [text] : bodyText tokens ≠ ""))
  rw [announces tokens after bare ends, isMade, ← text, ← value]
  rfl

/-- Behind a header, a text that goes on with a character behind the text of a body is fused to another
body. -/
theorem Announces.other {header body tokens rest : List Token} {gap text : List Char} {c : Char}
    (announces : Announces header) (bare : Bare tokens) (ink : isBlank c = false)
    (spelled : rawText tokens = gap ++ ((bodyText body).toList ++ c :: text))
    (bodies : List (String × Bool)) (next : Bool) :
    fusedBodies (header ++ (tokens ++ rest)) ≠ (bodyText body, next) :: bodies := by
  obtain ⟨more, others, split, going, ends⟩ : ∃ more others, rest = more ++ others ∧
      (∀ part ∈ more, part.kind.endsStatement = false) ∧
      ∀ part ∈ others.head?, part.kind.endsStatement = true := by
    refine ⟨rest.takeWhile (!·.kind.endsStatement), rest.dropWhile (!·.kind.endsStatement),
      List.takeWhile_append_dropWhile.symm, fun part member => ?_, fun part first => ?_⟩
    · simpa using List.mem_takeWhile_imp member
    · have stopped := List.head?_dropWhile_not (fun part : Token => !part.kind.endsStatement) rest
      rw [Option.mem_def.1 first] at stopped
      simpa using stopped
  have longer : (inked (bodyText body).toList).length <
      (inked (bodyText (tokens ++ more)).toList).length := by
    rw [inked_bodyText (tokens ++ more), rawText_append, spelled, inked_append, inked_append,
      inked_append]
    have inside : inked (c :: text) = c :: inked text := by
      rw [inked, List.filter_cons_of_pos (by simp [ink])]
      rfl
    rw [inside]
    simp only [List.length_append, List.length_cons]
    omega
  have nonempty : bodyText (tokens ++ more) ≠ "" := by
    intro none
    rw [none] at longer
    exact Nat.not_lt_zero _ longer
  obtain ⟨made, isMade, value⟩ := Option.map_eq_some_iff.1 (bodyToken_value nonempty)
  rw [split, ← List.append_assoc tokens, announces _ _ (bare.append going) ends, isMade]
  intro same
  have texts : made.value = bodyText body := (Prod.mk.inj (List.cons.inj same).1).1
  rw [← value, texts] at longer
  exact Nat.lt_irrefl _ longer

/-! ## Bodies in a layout -/

/-- The spacing before a body is read as layout of spaces. -/
theorem isGap_of_parted {gap : List Piece} {last name made : Token} {others : List Token}
    (parted : Parted (last :: name :: others) gap made) (isLast : last.isKeyword "AS" = true)
    (names : name.kind.namesLanguage = true) (verbatim : made.kind = .dollarString) :
    ∀ c ∈ writtenText options gap, isGap c = true := by
  have introduces : Introduces (last :: name :: others) := by
    refine ⟨last, name, others, rfl, isLast, fun dot => ?_⟩
    rw [dot] at names
    cases names
  rw [parted.body introduces verbatim]
  intro c member
  split at member
  · cases member
  · rw [List.mem_singleton.1 member]
    rfl

/-- A semicolon touches the body before it. -/
theorem head?_ended_semicolon {made semicolon : Token} {behind : List Char} {tokens : List Token}
    (verbatim : made.kind = .dollarString) (kind : semicolon.kind = .semicolon)
    (read : semicolon.ReadBefore behind)
    (spread : Spread (made :: earlier) (semicolon :: tokens) pieces) :
    (ended options pieces).head? = some ';' := by
  have visible : semicolon.kind.isLayout = false := by
    rw [kind]
    rfl
  obtain ⟨c, tail, shown, -⟩ := read.shows visible options
  obtain rfl : c = ';' := by
    have first : (semicolon.shown options.keywordCase).toList.head? = some c := by
      change (semicolon.display options).head? = some c
      rw [shown]
      rfl
    exact (first_of_mark read options.keywordCase first).2.2.2.1 kind
  cases spread with
  | word parted spread =>
    rename_i gap later
    obtain rfl : gap = [] := parted.closing made rfl verbatim kind
    have text : writtenText options ([] ++ .word semicolon :: later) =
        ';' :: (tail ++ writtenText options later) := by
      rw [List.nil_append, writtenText_word, ← Token.display, shown]
      rfl
    have ink : inked (writtenText options ([] ++ .word semicolon :: later)) ≠ [] := by
      rw [text, inked, List.filter_cons_of_pos (by decide)]
      exact List.cons_ne_nil _ _
    rw [ended, head?_trimEnd ink, text]
    rfl

/-- A semicolon at the front of a text is its first token. -/
theorem semicolonAt_lexemes {text : List Char} (first : text.head? = some ';') (others : List Token) :
    semicolonAt (lexemes text ++ others) = true ∧
      ∀ next ∈ (lexemes text ++ others).head?, next.kind.endsStatement = true := by
  obtain ⟨rest, rfl⟩ : ∃ rest, text = ';' :: rest := ⟨_, (cons_tail_of_head? first).symm⟩
  have read : Lexeme.read ';' ([] ++ rest) = ⟨.semicolon, [], rest⟩ := rfl
  have split : lexemes (';' :: rest) = Token.ofText .semicolon [';'] :: lexemes rest :=
    lexemes_of_read read
  rw [split]
  exact ⟨rfl, fun next found => by rw [← Option.some.inj found]; rfl⟩

/-- A body is shown as its text. -/
theorem display_bodyToken {body : List Token} {made : Token} (isMade : bodyToken body = some made)
    (options : Options) : made.display options = (bodyText body).toList ∧ bodyText body ≠ "" ∧
      made.value = bodyText body ∧ made.kind = .dollarString := by
  obtain ⟨_, _, _, nonempty, rfl⟩ := bodyToken_eq_some isMade
  refine ⟨?_, nonempty, rfl, rfl⟩
  rw [Token.display, Token.shown_plain]
  exact fun keyword => by cases keyword

/-- A list that starts with a semicolon. -/
theorem exists_semicolon {tokens : List Token} (marked : semicolonAt tokens = true) :
    ∃ semicolon more, tokens = semicolon :: more ∧ semicolon.kind = .semicolon := by
  cases tokens with
  | nil => cases marked
  | cons semicolon more => exact ⟨semicolon, more, rfl, by simpa [semicolonAt] using marked⟩

section Routine

variable {header body after : List Token} {made : Token}
  (found : bodyAt? token rest = some (header, body, after))
  (suffix : token :: rest <:+ lexemes source ++ [endToken])

include found suffix

/-- A body that is not blank is cut from a source like its text. -/
theorem bodyCut_of_suffix (nonempty : bodyText body ≠ "") :
    ∃ back lead core last trail, (semicolonAt after = true → rawText back ≠ []) ∧
      BodyCut body back lead core last trail := by
  obtain ⟨_, _, _, _, isHeader, -⟩ := bodyAt?_eq_some found
  have keyword := Token.kind_of_isKeyword isHeader.language
  obtain ⟨front, behind, split, whole⟩ := split_of_suffix suffix (by rw [keyword]; decide)
  have routine : header ++ body ++ after = token :: behind ++ [endToken] := by
    rw [← bodyAt?_split found, split]
    rfl
  have later := suffix_after found suffix
  rcases List.eq_nil_or_concat' after with rfl | ⟨back, last, rfl⟩
  · rcases after_cases found suffix with same | ⟨_, _, same, -⟩ <;> cases same
  · rw [← List.append_assoc] at routine
    obtain rfl : last = endToken := (List.cons.inj (List.append_inj_right' routine rfl)).1
    have inside := List.append_inj_left' routine rfl
    rw [← inside, List.append_assoc, ← List.append_assoc front] at whole
    obtain ⟨lead, core, last, trail, cut⟩ := lexemes_bodyText whole nonempty
    refine ⟨back, lead, core, last, trail, fun marked none => ?_, cut⟩
    obtain ⟨semicolon, more, same, kind⟩ := exists_semicolon marked
    rw [same] at later
    refine rawText_ne_nil_of_suffix later List.mem_cons_self (by rw [Token.isLayout, kind]; rfl)
      (by rw [kind]; decide) ?_
    rw [← same, rawText_append, none]
    rfl

variable (isMade : bodyToken body = some made)
  (spread : Spread earlier ((markedWritten (token :: rest)).map Prod.fst) pieces)
  (chain : (markedWritten (token :: rest)).IsChain (Threaded options))

include isMade spread chain

/-- A routine with a body that is not blank is read back up to its body. -/
theorem peel_routine :
    ∃ name mark announcing later, Announces announcing ∧ mark.isKeyword "AS" = true ∧
      name.kind.namesLanguage = true ∧
      Spread (mark :: name :: token :: earlier) (made :: (markedWritten after).map Prod.fst) later ∧
      lexemes (ended options pieces) = announcing ++ lexemes (ended options later) := by
  obtain ⟨before, name, between, mark, isHeader, rfl, -⟩ := bodyAt?_eq_some found
  have lexed := lexed_markedWritten suffix
  rw [markedWritten_cons_some found, isHeader.significant_eq, isMade] at spread chain lexed
  have ink : inked ((((made, true) :: markedWritten after).map Prod.fst).flatMap
      (Token.display options)) ≠ [] := by
    obtain ⟨shown, nonempty, -⟩ := display_bodyToken isMade options
    rw [List.map_cons, List.flatMap_cons, inked_append, shown]
    exact fun none => ink_of_bodyText nonempty (List.append_eq_nil_iff.1 none).1
  obtain ⟨announcing, later, announces, spreadBody, cut⟩ :=
    peel_header isHeader (fun entry member => lexed entry member) spread chain ink
  exact ⟨name, mark, announcing, later, announces, isHeader.mark, isHeader.names, spreadBody, cut⟩

/-- A body at the end of a source is fused again. -/
theorem fusedBodies_last (isLast : after = [endToken]) :
    fusedBodies (lexemes (ended options pieces) ++ [endToken]) = [(bodyText body, false)] := by
  obtain ⟨shown, nonempty, -, verbatim⟩ := display_bodyToken isMade options
  obtain ⟨back, lead, core, last, trail, -, cut⟩ := bodyCut_of_suffix found suffix nonempty
  obtain ⟨name, mark, announcing, later, announces, isMark, names, spreadBody, split⟩ :=
    peel_routine found suffix isMade spread chain
  rw [isLast, markedWritten_cons_eof rfl] at spreadBody
  obtain ⟨gap, layout, parted, isLayout, spelled, read⟩ := peel_last spreadBody
    (shows_of_bodyToken isMade options).1 (by rw [shown]; exact ink_of_bodyText nonempty) rfl
  rw [shown, (bodyText_trimmed nonempty).1] at read
  have bare := (cut.bare_ended (bare_of_bodyAt? found)).behind isLayout
  have lineFeed : IsBlankText ['\n'] := inked_eq_nil_iff.1 (by decide)
  have ends : ∀ next ∈ [endToken].head?, next.kind.endsStatement = true := by
    intro next first
    rw [← Option.some.inj first]
    rfl
  have again := announces.again bare ends nonempty
    (isGap_of_parted parted isMark names verbatim) lineFeed
    (by rw [rawText_append, rawText_lexemes, spelled])
  have none : fusedBodies [endToken] = [] := fusedBodies_eq_nil rfl
  rw [split, read, List.append_assoc, again, none]
  rfl

/-- A routine with a body that is not blank is read back up to a semicolon, which touches the body. -/
theorem peel_semicolon (marked : semicolonAt after = true) :
    ∃ announcing layout before later, Announces announcing ∧
      (∀ gap ∈ layout, gap.isLayout = true) ∧ (∀ c ∈ rawText layout, isGap c = true) ∧
      Spread before ((markedWritten after).map Prod.fst) later ∧
      (ended options later).head? = some ';' ∧
      lexemes (ended options pieces) =
        announcing ++ (layout ++ lexemes ((bodyText body).toList ++ ended options later)) := by
  obtain ⟨shown, nonempty, -, verbatim⟩ := display_bodyToken isMade options
  obtain ⟨name, mark, announcing, behind, announces, isMark, names, spreadBody, split⟩ :=
    peel_routine found suffix isMade spread chain
  obtain ⟨semicolon, more, rfl, kind⟩ := exists_semicolon marked
  have read := readBefore_of_suffix (suffix_after found suffix) (by rw [kind]; decide)
  have lexed : Lexed (semicolon, false) := ⟨rfl, by rw [kind]; rfl, _, read⟩
  rw [markedWritten_cons_semicolon kind] at spreadBody ⊢
  obtain ⟨gap, later, layout, parted, spreadAfter, isLayout, spelled, cut⟩ :=
    peel_text spreadBody (shows_of_bodyToken isMade options).1
      (lexed.ink (by rw [kind]; decide) _ options)
  rw [shown] at cut
  refine ⟨announcing, layout, _, later, announces, isLayout, ?_, spreadAfter,
    head?_ended_semicolon verbatim kind read spreadAfter, by rw [split, cut]⟩
  rw [spelled]
  exact isGap_of_parted parted isMark names verbatim

/-- A body before a semicolon that does not end in a comment is fused again. -/
theorem fusedBodies_separate (marked : semicolonAt after = true)
    (plain : endsInComment (bodyText body) = false) :
    ∃ before later, Spread before ((markedWritten after).map Prod.fst) later ∧
      fusedBodies (lexemes (ended options pieces) ++ [endToken]) =
        (bodyText body, true) :: fusedBodies (lexemes (ended options later) ++ [endToken]) := by
  obtain ⟨-, nonempty, -⟩ := display_bodyToken isMade options
  obtain ⟨back, lead, core, last, trail, going, cut⟩ := bodyCut_of_suffix found suffix nonempty
  obtain ⟨announcing, layout, before, later, announces, isLayout, gapped, spreadAfter, first, split⟩ :=
    peel_semicolon found suffix isMade spread chain marked
  obtain ⟨bare, settled⟩ := cut.bare_settled (bare_of_bodyAt? found) (going marked) plain
  obtain ⟨isSemicolon, ends⟩ := semicolonAt_lexemes first [endToken]
  have blank : IsBlankText [] := nofun
  have again := announces.again (bare.behind isLayout) ends nonempty gapped blank
    (by rw [rawText_append, rawText_lexemes, List.append_nil])
  refine ⟨before, later, spreadAfter, ?_⟩
  rw [split, (settled ';' rfl).append first, List.append_assoc, List.append_assoc,
    List.append_assoc, ← List.append_assoc layout, again, isSemicolon]

/-- A body before a semicolon that ends in a comment goes on with the semicolon. -/
theorem fusedBodies_absorbed (marked : semicolonAt after = true)
    (comment : endsInComment (bodyText body) = true) (bodies : List (String × Bool)) :
    fusedBodies (lexemes (ended options pieces) ++ [endToken]) ≠ (bodyText body, true) :: bodies := by
  obtain ⟨-, nonempty, -⟩ := display_bodyToken isMade options
  obtain ⟨back, lead, core, last, trail, going, cut⟩ := bodyCut_of_suffix found suffix nonempty
  obtain ⟨announcing, layout, before, later, announces, isLayout, -, -, first, split⟩ :=
    peel_semicolon found suffix isMade spread chain marked
  obtain ⟨other, same⟩ : ∃ other, ended options later = ';' :: other :=
    ⟨_, (cons_tail_of_head? first).symm⟩
  obtain ⟨tokens, others, text, read, bare, spelled⟩ := cut.absorbs (bare_of_bodyAt? found)
    ((cut.endsInComment_iff (going marked)).1 comment) other
  have ink : isBlank ';' = false := by decide
  have differs : fusedBodies (announcing ++ (layout ++ tokens ++ (others ++ [endToken]))) ≠
      (bodyText body, true) :: bodies :=
    announces.other (bare.behind isLayout) ink (by rw [rawText_append, spelled]) bodies true
  rw [split, same, read]
  simpa using differs

end Routine

/-! ## Whole sources -/

/-- Whether bodies keep apart from what follows them: none before a semicolon ends in a comment. -/
def Separable (bodies : List (String × Bool)) : Prop :=
  ∀ body ∈ bodies, body.2 = true → endsInComment body.1 = false

instance (bodies : List (String × Bool)) : Decidable (Separable bodies) :=
  inferInstanceAs (Decidable (∀ body ∈ bodies, body.2 = true → endsInComment body.1 = false))

/-- No bodies keep apart from anything. -/
theorem separable_nil : Separable [] := by
  simp [Separable]

/-- The tokens of a source have the same bodies in their layout exactly when the bodies keep apart. -/
theorem fusedBodies_ended_iff {tokens : List Token} (suffix : tokens <:+ lexemes source ++ [endToken])
    (chain : (markedWritten tokens).IsChain (Threaded options))
    (spread : Spread earlier ((markedWritten tokens).map Prod.fst) pieces) :
    fusedBodies (lexemes (ended options pieces) ++ [endToken]) = fusedBodies tokens ↔
      Separable (fusedBodies tokens) := by
  fun_induction markBodies tokens generalizing earlier pieces with
  | case1 =>
    have none : fusedBodies [] = [] := fusedBodies_eq_nil rfl
    rw [markedWritten, markBodies] at spread
    rw [peel_blank spread rfl, lexemes_newline, none, fusedBodies_eq_nil rfl]
    exact iff_of_true rfl separable_nil
  | case2 token rest header body after found ih =>
    have later := suffix_after found suffix
    have chainAfter : (markedWritten after).IsChain (Threaded options) := by
      rw [markedWritten_cons_some found, ← List.append_assoc] at chain
      exact chain.right_of_append
    rw [fusedBodies_cons_some found]
    cases isMade : bodyToken body with
    | none =>
      obtain ⟨before, laterPieces, spreadAfter, same⟩ :=
        fusedBodies_blank found suffix isMade spread chain
      rw [same]
      exact ih later chainAfter spreadAfter
    | some made =>
      obtain ⟨-, -, value, -⟩ := display_bodyToken isMade options
      rw [Option.toList_some, List.map_singleton, value, List.singleton_append]
      cases marked : semicolonAt after with
      | false =>
        have isLast : after = [endToken] := by
          rcases after_cases found suffix with last | ⟨semicolon, more, rfl, kind⟩
          · exact last
          · simp [semicolonAt, kind] at marked
        rw [fusedBodies_last found suffix isMade spread chain isLast, isLast,
          fusedBodies_eq_nil (rfl : hasRoutine (significant [endToken]) = false)]
        refine iff_of_true rfl fun body member before => ?_
        rw [List.mem_singleton.1 member] at before
        cases before
      | true =>
        rw [Separable, List.forall_mem_cons]
        cases comment : endsInComment (bodyText body) with
        | false =>
          obtain ⟨before, laterPieces, spreadAfter, kept⟩ :=
            fusedBodies_separate found suffix isMade spread chain marked comment
          rw [kept, List.cons_inj_right, ih later chainAfter spreadAfter]
          exact ⟨fun others => ⟨fun _ => rfl, others⟩, fun both => both.2⟩
        | true =>
          refine iff_of_false (fusedBodies_absorbed found suffix isMade spread chain marked comment _)
            fun both => ?_
          cases both.1 rfl
  | case3 token rest found ih =>
    have later : rest <:+ lexemes source ++ [endToken] := (List.suffix_cons token rest).trans suffix
    rw [fusedBodies_cons_none found]
    cases layout : token.isLayout with
    | true =>
      rw [markedWritten_cons_layout layout] at spread chain
      exact ih later chain spread
    | false =>
      by_cases isEnd : token.kind = .eof
      · have none : fusedBodies [] = [] := fusedBodies_eq_nil rfl
        rw [markedWritten_cons_eof isEnd] at spread
        rw [eq_nil_of_suffix suffix isEnd, peel_blank spread rfl, lexemes_newline, none,
          fusedBodies_eq_nil rfl]
        exact iff_of_true rfl separable_nil
      · have lexed := lexed_markedWritten suffix (token, false)
          (by rw [markedWritten_cons_none layout isEnd found]; exact List.mem_cons_self)
        rw [markedWritten_cons_none layout isEnd found] at spread chain
        obtain ⟨laterPieces, spreadRest, same⟩ := fusedBodies_peel spread lexed
          (lexed_markedWritten later) chain (startsRoutine_markedWritten suffix isEnd found)
        rw [same]
        exact ih later (List.isChain_cons.1 chain).2 spreadRest

end Source

/-- The bodies of a formatted text are those of its source, with the same texts, in the same order and
each before a semicolon exactly when it was, if and only if no body before a semicolon ends in a
comment. No number may touch a dot, since the two are read as one token then. -/
theorem fusedBodies_format_iff (options : Options) {source : String}
    (apart : (significant (fuseBodies (tokenize source))).IsChain fun token next =>
      token.runsInto next = false) :
    fusedBodies (tokenize (format options source)) = fusedBodies (tokenize source) ↔
      Separable (fusedBodies (tokenize source)) := by
  obtain ⟨pieces, spread, text⟩ := spread_format options source
  have lexed : fusedBodies (tokenize source) = fusedBodies (lexemes source.toList ++ [endToken]) := by
    rw [← fusedBodies_unplaced, unplaced_tokenize]
  have apartWritten : (written (fuseBodies (lexemes source.toList ++ [endToken]))).IsChain
      fun token next => token.runsInto next = false := by
    have placed : (significant (fuseBodies (lexemes source.toList ++ [endToken]))).IsChain
        fun token next => token.runsInto next = false := by
      rw [← unplaced_tokenize, fuseBodies_unplaced, faithful_unplaced.significant_map,
        List.isChain_map]
      exact apart
    obtain ⟨last, -, split⟩ := (closed_lexemes source.toList).fuseBodies.significant_eq
    rw [split] at placed
    exact placed.left_of_append
  have chain := threaded List.suffix_rfl apartWritten options
  rw [← fst_markedWritten] at spread
  rw [lexed, ← fusedBodies_unplaced, unplaced_tokenize, text, fusedBodies_trim]
  exact fusedBodies_ended_iff List.suffix_rfl chain spread

/-- A body with a comment inside it, before a semicolon, and a body that ends in a comment, at the end of
the source, survive. -/
theorem fusedBodies_format_routines :
    fusedBodies (tokenize (format {} "language a as  x -- c\n + 1 ;language b as\n y -- d")) =
      [("x -- c\n + 1", true), ("\n y -- d", false)] := by
  have bodies : fusedBodies (tokenize "language a as  x -- c\n + 1 ;language b as\n y -- d") =
      [("x -- c\n + 1", true), ("\n y -- d", false)] := by decide +kernel
  rw [← bodies]
  refine (fusedBodies_format_iff {} (by decide +kernel)).2 ?_
  rw [bodies]
  decide +kernel

/-! A comment at the end of a body takes the semicolon and the next statement with it. -/

example : fusedBodies (tokenize (format {} "language a as x -- c\n; select 1")) =
    [("x -- c;\n\nSELECT 1", false)] := by decide +kernel

end SqlLayout
