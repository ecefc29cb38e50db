import SqlLayout.Proofs.FusedBodies

/-!
# Reading a layout with bodies back

The tokens of a source that a layout writes are settled before one another, apart from those that were
made from bodies (`threaded`). So they are read back one by one (`peel_word`), or with their outlines
where the end of the text is trimmed (`peel_token`), and a header is found again only where the source
has one (`startsRoutine_of_outline`).
-/

namespace SqlLayout

open Text State

/-! ## Tokens that are read apart -/

/-- A token of a source is settled before what a layout writes between it and a later one. -/
theorem linked_of_suffix {source : List Char} {token : Token} {rest : List Token}
    (suffix : token :: rest <:+ lexemes source ++ [endToken]) (visible : token.isLayout = false)
    (going : token.kind ≠ .eof) {next : Token}
    (member : next ∈ written rest) (apart : token.runsInto next = false) (options : Options) :
    Linked options token next := by
  obtain ⟨inside, visibleNext, goingNext⟩ := of_mem_written member
  have later : rest <:+ lexemes source ++ [endToken] := (List.suffix_cons token rest).trans suffix
  obtain ⟨behind, readNext⟩ := readBefore_of_mem (mem_lexemes_of_suffix later inside goingNext)
  exact linked_of_read (readBefore_of_suffix suffix going) visible
    (rawText_ne_nil_of_suffix later inside visibleNext goingNext) readNext visibleNext apart options

/-- A keyword is settled before what a layout writes between it and verbatim text. -/
theorem linked_verbatim {token next : Token} {rest : List Char} (read : token.ReadBefore rest)
    (keyword : token.kind = .keyword) (going : rest ≠ []) (verbatim : next.kind = .dollarString)
    (options : Options) : Linked options token next := by
  have noComment : token.kind ≠ .comment := by
    rw [keyword]
    decide
  have settled {d : Char} (separates : isBreak d = true) : Settled (token.display options) d :=
    read.settled_shown (by rw [keyword]; rfl) going
      (Kind.haltsAt_of_isBreak noComment separates) options.keywordCase
  intro d follows
  rcases follows with rfl | ⟨-, rfl | ⟨abuts, first⟩⟩
  · exact settled rfl
  · exact settled rfl
  · have starts : next.startsLine = true := by
      simpa [Token.Abuts, keyword, verbatim] using abuts
    have plain : next.kind ≠ .keyword := by
      rw [verbatim]
      decide
    rw [Token.display, Token.shown_plain _ plain] at first
    rw [Token.startsLine, first] at starts
    refine settled ?_
    rcases (by simpa using starts : d = '\n' ∨ d = '\r') with rfl | rfl <;> rfl

/-- Only numbers and dots are read otherwise when the next token touches them. -/
theorem runsInto_of_namesLanguage {token : Token} (names : token.kind.namesLanguage = true)
    (next : Token) : token.runsInto next = false := by
  rw [Token.runsInto]
  cases kind : token.kind <;> rw [kind] at names <;> first | rfl | cases names

/-- Whether a token that was not made from a body is settled before what a layout writes between it
and the next token. -/
def Joined (options : Options) (entry next : Token × Bool) : Prop :=
  entry.2 = false → Linked options entry.1 next.1

/-- Whether a token that was not made from a body is read apart from the next one, which shows where
it starts. -/
def Threaded (options : Options) (entry next : Token × Bool) : Prop :=
  Joined options entry next ∧ next.1.Shows options

/-- A keyword names a language if it stands where one is named. -/
theorem namesLanguage_of_keyword {token : Token} (keyword : token.kind = .keyword) :
    token.kind.namesLanguage = true := by
  rw [keyword]
  rfl

/-- The `AS` of a header is settled before its body, and before what is behind a blank one. -/
theorem linked_mark {source : List Char} {mark : Token} {body after : List Token}
    (suffix : mark :: (body ++ after) <:+ lexemes source ++ [endToken])
    (keyword : mark.kind = .keyword) (going : ∀ part ∈ body, part.kind ≠ .eof) (options : Options)
    {next : Token × Bool}
    (first : ((bodyToken body).toList.map (·, true) ++ markedWritten after).head? = some next) :
    Linked options mark next.1 := by
  have goingMark : mark.kind ≠ .eof := by
    rw [keyword]
    decide
  cases made : bodyToken body with
  | none =>
    rw [made, Option.toList_none, List.map_nil, List.nil_append, head?_markedWritten] at first
    obtain ⟨other, isFirst, rfl⟩ := Option.map_eq_some_iff.1 first
    refine linked_of_suffix suffix (Token.isLayout_of_keyword keyword) goingMark ?_
      (runsInto_of_namesLanguage (namesLanguage_of_keyword keyword) _) options
    rw [written_append going]
    exact List.mem_append_right _ (List.mem_of_mem_head? isFirst)
  | some fused =>
    rw [made] at first
    obtain rfl : (fused, true) = next := Option.some.inj first
    obtain ⟨_, _, _, nonempty, same⟩ := bodyToken_eq_some made
    refine linked_verbatim (readBefore_of_suffix suffix goingMark) keyword ?_ (by rw [same]) options
    intro none
    rw [rawText_append, List.append_eq_nil_iff] at none
    refine nonempty ?_
    change String.ofList ((trimEnd (rawText body)).dropWhile isGap) = ""
    rw [none.1]
    rfl

/-- The tokens of a routine are settled before one another, up to its body. -/
theorem joined_routine {source : List Char} {token : Token} {rest header body after : List Token}
    (found : bodyAt? token rest = some (header, body, after))
    (suffix : token :: rest <:+ lexemes source ++ [endToken]) {options : Options}
    (chain : (markedWritten after).IsChain (Joined options)) :
    (markedWritten (token :: rest)).IsChain (Joined options) := by
  obtain ⟨before, name, between, mark, isHeader, rfl, split, -⟩ := bodyAt?_eq_some found
  have language := Token.kind_of_isKeyword isHeader.language
  have keyword := Token.kind_of_isKeyword isHeader.mark
  have names := isHeader.names
  have suffixName : name :: (between ++ mark :: (body ++ after)) <:+
      lexemes source ++ [endToken] := by
    refine (List.suffix_append (token :: before) _).trans ?_
    rw [split] at suffix
    simpa using suffix
  have suffixMark : mark :: (body ++ after) <:+ lexemes source ++ [endToken] :=
    (List.suffix_append (name :: between) _).trans suffixName
  have goingName : name.kind ≠ .eof := by
    intro isEnd
    rw [isEnd] at names
    cases names
  have goingMark : mark.kind ≠ .eof := by
    rw [keyword]
    decide
  have noEnd {layout : List Token} (isLayout : ∀ gap ∈ layout, gap.isLayout = true) :
      ∀ gap ∈ layout, gap.kind ≠ .eof :=
    fun gap member => kind_ne_eof_of_isLayout (isLayout gap member)
  have isName : name ∈ written rest := by
    rw [split, List.append_assoc]
    exact mem_written (noEnd isHeader.before) isHeader.visible goingName _
  have isNext : mark ∈ written (between ++ mark :: (body ++ after)) :=
    mem_written (noEnd isHeader.between) (Token.isLayout_of_keyword keyword) goingMark _
  rw [markedWritten_cons_some found, isHeader.significant_eq]
  simp only [List.map_cons, List.map_nil, List.cons_append, List.nil_append]
  refine List.isChain_cons_cons.2 ⟨fun _ => ?_, List.isChain_cons_cons.2 ⟨fun _ => ?_,
    List.isChain_cons.2 ⟨fun next first _ => ?_, ?_⟩⟩⟩
  · exact linked_of_suffix suffix (Token.isLayout_of_keyword language) (by rw [language]; decide)
      isName (runsInto_of_namesLanguage (namesLanguage_of_keyword language) _) options
  · exact linked_of_suffix suffixName isHeader.visible goingName isNext (runsInto_of_namesLanguage names _)
      options
  · exact linked_mark suffixMark keyword
      (fun part inside => kind_of_mem_header found part (List.mem_append_right _ inside)) options first
  · cases bodyToken body with
    | none => exact chain
    | some fused =>
      refine List.isChain_cons.2 ⟨?_, chain⟩
      intro next _ plain
      cases plain

/-- The tokens of a source that are written are settled before one another, bodies aside. -/
theorem joined {source : List Char} {tokens : List Token}
    (suffix : tokens <:+ lexemes source ++ [endToken])
    (apart : (written (fuseBodies tokens)).IsChain fun token next => token.runsInto next = false)
    (options : Options) : (markedWritten tokens).IsChain (Joined options) := by
  fun_induction markBodies tokens with
  | case1 =>
    rw [markedWritten, markBodies]
    exact List.IsChain.nil
  | case2 token rest header body after found ih =>
    refine joined_routine found suffix (ih (suffix_after found suffix) ?_)
    rw [← fst_markedWritten, markedWritten_cons_some found, List.map_append, List.map_append,
      fst_markedWritten, ← List.append_assoc] at apart
    exact apart.right_of_append
  | case3 token rest found ih =>
    have later : rest <:+ lexemes source ++ [endToken] := (List.suffix_cons token rest).trans suffix
    rw [fuseBodies_cons_none found] at apart
    cases layout : token.isLayout with
    | true =>
      rw [written_cons_layout layout] at apart
      rw [markedWritten_cons_layout layout]
      exact ih later apart
    | false =>
      by_cases isEnd : token.kind = .eof
      · rw [markedWritten_cons_eof isEnd]
        exact List.IsChain.nil
      · rw [written_cons layout isEnd, List.isChain_cons] at apart
        rw [markedWritten_cons_none layout isEnd found]
        refine List.isChain_cons.2 ⟨fun next first _ => ?_, ih later apart.2⟩
        have isNext := congrArg List.head? (fst_markedWritten rest)
        rw [List.head?_map, first, Option.map_some] at isNext
        rw [head?_markedWritten] at first
        obtain ⟨other, isFirst, rfl⟩ := Option.map_eq_some_iff.1 first
        exact linked_of_suffix suffix layout isEnd (List.mem_of_mem_head? isFirst)
          (apart.1 other isNext.symm) options

/-- Every token of a source that is written is shown. -/
theorem shows_markedWritten {source : List Char} {tokens : List Token}
    (suffix : tokens <:+ lexemes source ++ [endToken]) (options : Options) :
    ∀ entry ∈ markedWritten tokens, entry.1.Shows options := by
  intro entry member
  have inside : entry.1 ∈ written (fuseBodies tokens) := by
    rw [← fst_markedWritten]
    exact List.mem_map_of_mem member
  obtain ⟨fused, visible, going⟩ := of_mem_written inside
  rcases mem_fuseBodies fused with lexed | ⟨body, made⟩
  · obtain ⟨rest, read⟩ := readBefore_of_mem (mem_lexemes_of_suffix suffix lexed going)
    exact read.shows visible options
  · exact (shows_of_bodyToken made options).1

/-- The tokens of a source that are written are read apart from one another, bodies aside. -/
theorem threaded {source : List Char} {tokens : List Token}
    (suffix : tokens <:+ lexemes source ++ [endToken])
    (apart : (written (fuseBodies tokens)).IsChain fun token next => token.runsInto next = false)
    (options : Options) : (markedWritten tokens).IsChain (Threaded options) :=
  (joined suffix apart options).imp_of_mem_imp fun _ next _ member isJoined =>
    ⟨isJoined, shows_markedWritten suffix options next member⟩

/-! ## Reading back -/

/-- An empty line is layout. -/
theorem lexemes_newline : lexemes ['\n'] = [Token.ofText .newline ['\n']] :=
  lexemes_single rfl

/-- Whether tokens are those of a text, or both are layout. -/
def Remains (behind : List Token) (text : List Char) : Prop :=
  behind = lexemes text ∨ (∀ gap ∈ behind, gap.isLayout = true) ∧ text = ['\n']

/-- Tokens that remain have the significant tokens of the text. -/
theorem Remains.significant_eq {behind : List Token} {text : List Char}
    (remains : Remains behind text) : significant behind = significant (lexemes text) := by
  rcases remains with same | ⟨layout, rfl⟩
  · rw [same]
  · rw [significant_eq_nil layout, lexemes_newline]
    rfl

/-- Tokens that remain have the bodies of the text. -/
theorem Remains.fusedBodies_eq {behind : List Token} {text : List Char}
    (remains : Remains behind text) (rest : List Token) :
    fusedBodies (behind ++ rest) = fusedBodies (lexemes text ++ rest) := by
  rcases remains with same | ⟨layout, rfl⟩
  · rw [same]
  · rw [fusedBodies_layout layout, lexemes_newline, fusedBodies_layout]
    simp [Token.isLayout, Kind.isLayout]

/-- Whether a token that is written is a lexeme of a source, and not made from a body. -/
structure Lexed (entry : Token × Bool) : Prop where
  /-- It is not made from a body. -/
  plain : entry.2 = false
  /-- It is no layout. -/
  visible : entry.1.kind.isLayout = false
  /-- It is read from a source. -/
  read : ∃ rest, entry.1.ReadBefore rest

section Peel

variable {options : Options} {token : Token} {entries : List (Token × Bool)} {earlier : List Token}
  {pieces : List Piece}

/-- A token of a source before others that are not all blank is read back from a layout as it is
written. -/
theorem peel_word (spread : Spread earlier (token :: entries.map Prod.fst) pieces)
    (lexed : Lexed (token, false)) (chain : ((token, false) :: entries).IsChain (Threaded options))
    (ink : inked ((entries.map Prod.fst).flatMap (Token.display options)) ≠ []) :
    ∃ layout later, (∀ gap ∈ layout, gap.isLayout = true) ∧
      Spread (token :: earlier) (entries.map Prod.fst) later ∧
      lexemes (ended options pieces) =
        layout ++ token.recast options.keywordCase :: lexemes (ended options later) := by
  obtain ⟨-, visible, _, read⟩ := lexed
  cases entries with
  | nil => exact absurd rfl ink
  | cons next others =>
    obtain ⟨linked, shows⟩ := (List.isChain_cons_cons.1 chain).1
    obtain ⟨gap, later, layout, -, spreadLater, isLayout, -, cut⟩ :=
      peel spread (read.shows visible options) shows (linked rfl) ink
    refine ⟨layout, later, isLayout, spreadLater, ?_⟩
    rw [cut, Token.display, read.lexemes_shown visible]
    rfl

/-- A token of a source is read back from a layout with its outline. -/
theorem peel_token (spread : Spread earlier (token :: entries.map Prod.fst) pieces)
    (lexed : Lexed (token, false)) (chain : ((token, false) :: entries).IsChain (Threaded options))
    (ink : inked ((token :: entries.map Prod.fst).flatMap (Token.display options)) ≠ []) :
    ∃ layout other behind later, (∀ gap ∈ layout, gap.isLayout = true) ∧
      other.outline = token.outline ∧ Spread (token :: earlier) (entries.map Prod.fst) later ∧
      lexemes (ended options pieces) = layout ++ other :: behind ∧
      Remains behind (ended options later) := by
  by_cases blank : inked ((entries.map Prod.fst).flatMap (Token.display options)) = []
  · obtain ⟨-, visible, _, read⟩ := lexed
    rw [List.flatMap_cons, inked_append, blank, List.append_nil] at ink
    obtain ⟨gap, layout, -, isLayout, -, cut⟩ :=
      peel_last spread (read.shows visible options) ink blank
    obtain ⟨other, behind, again, isBehind, trims⟩ :=
      (read.recast visible options.keywordCase).trimmed visible ink
    cases spread with
    | word parted spread =>
      refine ⟨layout, other, behind, _, isLayout, ?_, spread, ?_,
        Or.inr ⟨isBehind, peel_blank spread blank⟩⟩
      · exact trims.outline token.value_recast ink
      · rw [cut]
        exact congrArg _ again
  · obtain ⟨layout, later, isLayout, spreadLater, cut⟩ := peel_word spread lexed chain blank
    exact ⟨layout, token.recast options.keywordCase, _, later, isLayout, rfl, spreadLater, cut,
      Or.inl rfl⟩

/-- The first tokens of a layout that were not made from bodies are read back with their outlines. -/
theorem outline_ended (count : Nat) (spread : Spread earlier (entries.map Prod.fst) pieces)
    (chain : entries.IsChain (Threaded options)) (lexed : ∀ entry ∈ entries.take count, Lexed entry) :
    ((significant (lexemes (ended options pieces))).map Token.outline).take count <+:
      ((entries.map Prod.fst).map Token.outline).take count := by
  induction count generalizing entries earlier pieces with
  | zero => exact List.nil_prefix
  | succ count ih =>
    by_cases blank : inked ((entries.map Prod.fst).flatMap (Token.display options)) = []
    · rw [peel_blank spread blank, lexemes_newline]
      exact List.nil_prefix
    cases entries with
    | nil => exact absurd rfl blank
    | cons entry entries =>
      obtain ⟨token, made⟩ := entry
      have isLexed := lexed (token, made) List.mem_cons_self
      obtain rfl : made = false := isLexed.plain
      obtain ⟨layout, other, behind, later, isLayout, same, spreadLater, cut, remains⟩ :=
        peel_token spread isLexed chain blank
      have visibleOther : other.isLayout = false := by
        rw [← faithful_outline.isLayout, same, faithful_outline.isLayout]
        exact isLexed.visible
      have rest := ih spreadLater (List.isChain_cons.1 chain).2 fun entry member =>
        lexed entry (List.mem_cons_of_mem _ member)
      rw [cut, significant_append, significant_eq_nil isLayout, significant_cons visibleOther,
        remains.significant_eq, List.nil_append, List.map_cons, List.map_cons, List.map_cons, same]
      exact List.cons_prefix_cons.2 ⟨rfl, rest⟩

end Peel

/-- Tokens with the same outline are of one kind. -/
theorem kind_of_outline {token other : Token} (same : other.outline = token.outline) :
    other.kind = token.kind := by
  rw [← other.kind_outline, same, token.kind_outline]

/-- Tokens with the same outline are the same keywords. -/
theorem isKeyword_of_outline {token other : Token} (same : other.outline = token.outline)
    (word : String) : other.isKeyword word = token.isKeyword word := by
  rw [← faithful_outline.isKeyword, same, faithful_outline.isKeyword]

/-- A header that is read back from outlines is one in the tokens they come from. -/
theorem startsRoutine_of_outline {token other : Token} {tokens others : List Token}
    (same : other.outline = token.outline)
    (look : (others.map Token.outline).take 3 <+: (tokens.map Token.outline).take 3)
    (starts : startsRoutine (other :: (others ++ [endToken])) = true) (behind : List Token) :
    startsRoutine (token :: (tokens ++ behind)) = true := by
  rcases others with - | ⟨a, - | ⟨b, - | ⟨c, more⟩⟩⟩
  · cases starts
  · cases starts
  · rw [List.cons_append, List.cons_append, List.nil_append, startsRoutine, Bool.and_eq_true] at starts
    cases starts.2
  · rcases tokens with - | ⟨name, - | ⟨mark, - | ⟨first, rest⟩⟩⟩
    · simp at look
    · simp at look
    · simp at look
    · simp only [List.map_cons, List.take_succ_cons, List.take_zero, List.cons_prefix_cons,
        List.prefix_rfl, and_true] at look
      rw [List.cons_append, List.cons_append, List.cons_append, startsRoutine,
        isKeyword_of_outline same, kind_of_outline look.1, isKeyword_of_outline look.2.1,
        kind_of_outline look.2.2] at starts
      exact starts

/-! ## Tokens of a source -/

section Source

variable {source : List Char} {options : Options}

/-- The first three tokens that are written are lexemes of the source. -/
theorem lexed_markedWritten {tokens : List Token} (suffix : tokens <:+ lexemes source ++ [endToken]) :
    ∀ entry ∈ (markedWritten tokens).take 3, Lexed entry := by
  intro entry member
  rw [take_markedWritten] at member
  obtain ⟨token, inside, rfl⟩ := List.mem_map.1 member
  obtain ⟨lexed, visible, going⟩ := of_mem_written (List.mem_of_mem_take inside)
  exact ⟨rfl, visible, readBefore_of_mem (mem_lexemes_of_suffix suffix lexed going)⟩

/-- A token of a source that is no operator is not blank. -/
theorem Lexed.ink {entry : Token × Bool} (lexed : Lexed entry) (word : entry.1.kind ≠ .operator)
    (tokens : List Token) (options : Options) :
    inked ((entry.1 :: tokens).flatMap (Token.display options)) ≠ [] := by
  obtain ⟨-, visible, _, read⟩ := lexed
  obtain ⟨c, tail, spelled, -, -, blank, -⟩ :=
    (read.recast visible options.keywordCase).first visible
  have ink : isBlank c = false := Bool.eq_false_iff.2 fun isBlank => word (blank isBlank).1
  change entry.1.display options = c :: tail at spelled
  rw [List.flatMap_cons, spelled, List.cons_append, inked, List.filter_cons_of_pos (by simp [ink])]
  exact List.cons_ne_nil _ _

end Source

end SqlLayout
