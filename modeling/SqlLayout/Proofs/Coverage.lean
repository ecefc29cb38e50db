import SqlLayout.Proofs.Routine
import SqlLayout.Proofs.Stream
import SqlLayout.Proofs.Trimming

/-!
# Where the tokens of a source stand

The spans of the tokens of a source follow each other, and everything between them is blank
(`Covers`). Reading gives every character to a token (`covers_tokensFrom`), and both ways of fusing
tokens keep what they cover up to blank characters (`Covers.fuseBodies`, `Covers.fuseKeywords`).
-/

namespace SqlLayout

open Text

/-- Whether tokens cover a text that starts at an offset: each stands where its span says and has the
characters of its stretch that are not blank, and what no token covers is blank. -/
inductive Covers : Nat → List Token → List Char → Prop
  /-- Only blank characters are left. -/
  | done {offset : Nat} {text : List Char} (blank : IsBlankText text) : Covers offset [] text
  /-- Blank characters and the stretch of a token come next. -/
  | token {offset : Nat} {token : Token} {rest : List Token} {before stretch after : List Char}
    (blank : IsBlankText before) (start : token.span.start.offset = offset + before.length)
    (stop : token.span.stop.offset = offset + before.length + stretch.length)
    (same : inked stretch = inked token.text)
    (others : Covers (offset + before.length + stretch.length) rest after) :
    Covers offset (token :: rest) (before ++ (stretch ++ after))

namespace Covers

/-- What is behind covered tokens can be covered in another way. -/
theorem replace {front back other : List Token}
    (better : ∀ {offset : Nat} {text : List Char}, Covers offset back text →
      Covers offset other text) {offset : Nat} {text : List Char}
    (covers : Covers offset (front ++ back) text) : Covers offset (front ++ other) text := by
  induction front generalizing offset text with
  | nil => exact better covers
  | cons token front ih =>
    cases covers with
    | token blank start stop same others => exact Covers.token blank start stop same (ih others)

/-- Blank characters before a covered text can be added. -/
theorem behind {blanks text : List Char} {offset : Nat} {tokens : List Token}
    (blank : IsBlankText blanks) (covers : Covers (offset + blanks.length) tokens text) :
    Covers offset tokens (blanks ++ text) := by
  have join {more : List Char} (too : IsBlankText more) : IsBlankText (blanks ++ more) := by
    intro c member
    rcases List.mem_append.1 member with left | right
    · exact blank c left
    · exact too c right
  cases covers with
  | done rest => exact Covers.done (join rest)
  | token rest start stop same others =>
    rename_i token behind before stretch after
    have size : offset + (blanks ++ before).length = offset + blanks.length + before.length := by
      rw [List.length_append]
      omega
    rw [← List.append_assoc]
    refine Covers.token (join rest) ?_ ?_ same ?_
    · rw [size, start]
    · rw [size, stop]
    · rw [size]
      exact others

/-- Tokens that follow each other cover one stretch, from the start of the first to the stop of the
last. -/
theorem stretch {first : Token} {others back : List Token} {offset : Nat} {text : List Char}
    (covers : Covers offset (first :: (others ++ back)) text) :
    ∃ before stretch after, text = before ++ (stretch ++ after) ∧ IsBlankText before ∧
      first.span.start.offset = offset + before.length ∧
      (others.getLast?.getD first).span.stop.offset = offset + before.length + stretch.length ∧
      inked stretch = inked (rawText (first :: others)) ∧
      Covers (offset + before.length + stretch.length) back after := by
  induction others generalizing first offset text with
  | nil =>
    cases covers with
    | token blank start stop same rest =>
      refine ⟨_, _, _, rfl, blank, start, stop, ?_, rest⟩
      rw [same, rawText_cons]
      simp [rawText]
  | cons second others ih =>
    cases covers with
    | token blank start stop same rest =>
      rename_i before part behind
      obtain ⟨between, whole, after, rfl, blankToo, next, last, sameToo, tail⟩ := ih rest
      refine ⟨before, part ++ (between ++ whole), after, ?_, blank, start, ?_, ?_, ?_⟩
      · simp only [List.append_assoc]
      · rw [List.getLast?_cons, Option.getD_some, last]
        simp only [List.length_append]
        omega
      · rw [inked_append, inked_append, same, inked_eq_nil blankToo, sameToo, List.nil_append,
          rawText_cons first, inked_append]
      · have size : offset + before.length + (part ++ (between ++ whole)).length =
            offset + before.length + part.length + between.length + whole.length := by
          simp only [List.length_append]
          omega
        rw [size]
        exact tail

/-- The characters of a covered text that are not blank are those of the tokens. -/
theorem inked_text {offset : Nat} {tokens : List Token} {text : List Char}
    (covers : Covers offset tokens text) : inked text = inked (rawText tokens) := by
  induction covers with
  | done blank => exact inked_eq_nil blank
  | token blank start stop same others ih =>
    rw [inked_append, inked_append, inked_eq_nil blank, same, ih, rawText_cons, inked_append]
    rfl

end Covers

/-! ## Reading -/

/-- Behind a text the offset has grown by its length. -/
theorem offset_after (place : Position) (text : List Char) :
    (place.after text).offset = place.offset + text.length := by
  induction text generalizing place with
  | nil => rfl
  | cons c rest ih =>
    rw [Position.after, List.length_cons]
    split
    · rw [ih]
      have next : place.nextLine.offset = place.offset + 1 := rfl
      omega
    · rw [ih]
      have next : place.nextColumn.offset = place.offset + 1 := rfl
      omega

/-- Behind the first lexeme of the rest of a source is what the lexeme leaves. -/
theorem drop_after_read {source rest : List Char} {start : Position} {c : Char}
    (ahead : source.drop start.offset = c :: rest) :
    source.drop (start.after (c :: (Lexeme.read c rest).tail)).offset =
      (Lexeme.read c rest).rest := by
  have split : c :: rest = c :: (Lexeme.read c rest).tail ++ (Lexeme.read c rest).rest := by
    rw [List.cons_append, Lexeme.tail_append_rest]
  rw [offset_after, ← List.drop_drop, ahead, split]
  exact List.drop_left

/-- Every token of the rest of a source, apart from the end, is the lexeme that the source has at the
start of the token. -/
theorem read_of_mem_tokensFrom {source rest : List Char} {start : Position} {token : Token}
    (ahead : source.drop start.offset = rest) (member : token ∈ tokensFrom start rest) :
    token.kind = .eof ∨ ∃ c behind, source.drop token.span.start.offset = c :: behind ∧
      token.kind = (Lexeme.read c behind).kind ∧
      token.text = c :: (Lexeme.read c behind).tail := by
  fun_induction tokensFrom start rest with
  | case1 start =>
    obtain rfl := List.mem_singleton.1 member
    exact Or.inl rfl
  | case2 start c rest lexeme raw stop ih =>
    rcases List.mem_cons.1 member with rfl | later
    · exact Or.inr ⟨c, rest, ahead, rfl, String.toList_ofList⟩
    · exact ih (drop_after_read ahead) later

/-- The tokens of a source cover it. -/
theorem covers_tokensFrom (start : Position) (source : List Char) :
    Covers start.offset (tokensFrom start source) source := by
  fun_induction tokensFrom start source with
  | case1 start =>
    have none : IsBlankText [] := by simp [IsBlankText]
    have empty : Covers start.offset [⟨.eof, "", "", ⟨start, start⟩⟩] ([] ++ ([] ++ [])) :=
      Covers.token none rfl rfl rfl (Covers.done none)
    exact empty
  | case2 start c source lexeme raw stop ih =>
    have whole : c :: source = [] ++ (c :: lexeme.tail ++ lexeme.rest) := by
      rw [List.nil_append, List.cons_append, Lexeme.tail_append_rest]
    have size := offset_after start (c :: lexeme.tail)
    rw [whole]
    refine Covers.token (by simp [IsBlankText]) rfl ?_ ?_ ?_
    · exact size
    · rw [Token.text, String.toList_ofList]
    · rw [List.length_nil, Nat.add_zero, ← size]
      exact ih

/-- The end token closes the tokens of a source. -/
theorem closed_tokensFrom (start : Position) (source : List Char) :
    Closed (tokensFrom start source) := by
  fun_induction tokensFrom start source with
  | case1 => exact Closed.last rfl
  | case2 start c source lexeme raw stop ih =>
    refine Closed.cons ?_ ih
    have read : lexeme = Lexeme.read c source := rfl
    rw [read, Lexeme.read_eq]
    exact (Rule.kind_of c _ _).1

/-! ## Tokens of a source -/

/-- What the tokens of a source and the tokens fused from them have in common. -/
structure Token.Genuine (token : Token) : Prop where
  /-- Layout is blank. -/
  layout : token.isLayout = true → IsBlankText token.text
  /-- The canonical text differs from the spelling for keywords only. -/
  value : token.kind ≠ .keyword → token.value = token.raw
  /-- The end of a source has no text. -/
  ended : token.kind = .eof → token.text = []

/-- A lexeme is genuine. -/
theorem Token.ReadBefore.genuine {token : Token} {rest : List Char} (read : token.ReadBefore rest) :
    token.Genuine :=
  ⟨read.blank_of_isLayout, read.value_eq_raw, fun eof => absurd eof read.kind_ne_eof⟩

/-- A token of a source is read from it, or it is the end. -/
theorem readBefore_or_end {source : String} {token : Token} (member : token ∈ tokenize source) :
    (∃ rest, token.unplaced.ReadBefore rest) ∨ token.unplaced = endToken := by
  have found : token.unplaced ∈ lexemes source.toList ++ [endToken] := by
    rw [← unplaced_tokenize]
    exact List.mem_map_of_mem member
  exact (List.mem_append.1 found).imp readBefore_of_mem List.mem_singleton.1

/-- The tokens of a source are genuine. -/
theorem genuine_of_mem_tokenize {source : String} {token : Token}
    (member : token ∈ tokenize source) : token.Genuine := by
  rcases readBefore_or_end member with ⟨rest, read⟩ | same
  · have genuine := read.genuine
    exact ⟨genuine.layout, genuine.value, genuine.ended⟩
  · have kind : token.kind = .eof := congrArg Token.kind same
    have raw : token.raw = "" := congrArg Token.raw same
    have value : token.value = "" := congrArg Token.value same
    refine ⟨fun layout => ?_, fun _ => by rw [value, raw], fun _ => by rw [Token.text, raw]; rfl⟩
    rw [Token.isLayout, kind] at layout
    cases layout

/-- Fusing bodies keeps tokens genuine. -/
theorem genuine_fuseBodies {tokens : List Token} (genuine : ∀ token ∈ tokens, token.Genuine) :
    ∀ token ∈ fuseBodies tokens, token.Genuine := by
  intro token member
  rcases mem_fuseBodies member with inside | ⟨body, made⟩
  · exact genuine token inside
  · obtain ⟨_, _, _, _, rfl⟩ := bodyToken_eq_some made
    exact ⟨nofun, fun _ => rfl, nofun⟩

/-- Fusing keywords keeps tokens genuine. -/
theorem genuine_fuseKeywords {tokens : List Token} (genuine : ∀ token ∈ tokens, token.Genuine) :
    ∀ token ∈ fuseKeywords tokens, token.Genuine := by
  fun_induction fuseKeywords tokens with
  | case1 => exact genuine
  | case2 token rest compound after found ih =>
    obtain ⟨-, words, -, parts, spelled, rfl⟩ := compoundAt?_eq_some found
    obtain ⟨taken, rfl, -⟩ := phrase?_split spelled
    intro other member
    rcases List.mem_cons.1 member with rfl | later
    · refine ⟨fun layout => ?_, fun plain => absurd rfl plain, fun ended => ?_⟩
      · cases layout
      · cases ended
    · exact ih (fun token inside => genuine token
        (List.mem_cons_of_mem _ (List.mem_append_right _ inside))) other later
  | case3 token rest found ih =>
    intro other member
    rcases List.mem_cons.1 member with rfl | later
    · exact genuine other List.mem_cons_self
    · exact ih (fun token inside => genuine token (List.mem_cons_of_mem _ inside)) other later

/-! ## Fusing -/

/-- The text of a body has the characters of its tokens that are not blank. -/
theorem inked_bodyText (body : List Token) :
    inked (bodyText body).toList = inked (rawText body) := by
  have gap : ∀ c, (c == ' ' || c == '\t') = true → isBlank c = true := fun c h => isBlank_of_isGap h
  rw [bodyText, String.toList_ofList, inked_dropWhile gap, inked_trimEnd]
  rfl

/-- Fusing bodies keeps what tokens cover. -/
theorem Covers.fuseBodies {tokens : List Token} {offset : Nat} {text : List Char}
    (covers : Covers offset tokens text) : Covers offset (fuseBodies tokens) text := by
  fun_induction SqlLayout.fuseBodies tokens generalizing offset text with
  | case1 => exact covers
  | case2 token rest header body after found ih =>
    rw [bodyAt?_split found, List.append_assoc] at covers
    rw [List.append_assoc]
    refine covers.replace fun {offset text} bodyCovers => ?_
    obtain ⟨shown, made⟩ : ∃ shown, bodyToken body = shown := ⟨_, rfl⟩
    rw [made]
    have nonempty := bodyAt?_nonempty found
    cases body with
    | nil => cases nonempty
    | cons first others =>
      obtain ⟨before, stretch, behind, rfl, blank, start, stop, same, rest⟩ := bodyCovers.stretch
      cases shown with
      | none =>
        have noText : bodyText (first :: others) = "" := by
          rw [bodyToken_cons] at made
          split at made
          · assumption
          · cases made
        have cleared : inked stretch = [] := by
          rw [same, ← inked_bodyText, noText]
          rfl
        have blankToo : IsBlankText stretch := inked_eq_nil_iff.1 cleared
        exact Covers.behind blank (Covers.behind blankToo (ih rest))
      | some token =>
        obtain ⟨first', others', sameBody, -, rfl⟩ := bodyToken_eq_some made
        obtain ⟨rfl, rfl⟩ := List.cons.inj sameBody
        refine Covers.token blank start stop ?_ (ih rest)
        rw [same, Token.text, ← inked_bodyText]
  | case3 token rest found ih =>
    cases covers with
    | token blank start stop same others => exact Covers.token blank start stop same (ih others)

/-- Words with spaces between them have the characters of the words that are not blank. -/
theorem inked_joinWords (words : List String) :
    inked (joinWords words).toList = words.flatMap fun word => inked word.toList := by
  fun_induction joinWords words with
  | case1 => rfl
  | case2 word => rw [List.flatMap_singleton]
  | case3 word words more ih =>
    have space : inked " ".toList = [] := by decide
    rw [String.toList_append, String.toList_append, inked_append, inked_append, space, ih,
      List.flatMap_cons, List.append_nil]

/-- Layout adds only blank characters to the text of tokens. -/
theorem inked_rawText_significant {tokens : List Token}
    (genuine : ∀ token ∈ tokens, token.Genuine) :
    inked (rawText (significant tokens)) = inked (rawText tokens) := by
  induction tokens with
  | nil => rfl
  | cons token rest ih =>
    have others := ih fun token member => genuine token (List.mem_cons_of_mem _ member)
    cases layout : token.isLayout with
    | true =>
      have blank := (genuine token List.mem_cons_self).layout layout
      rw [significant_cons_layout layout, others, rawText_cons, inked_append, inked_eq_nil blank]
      rfl
    | false =>
      rw [significant_cons layout, rawText_cons, rawText_cons, inked_append, inked_append, others]

/-- The text of a compound has the characters of its parts that are not blank. -/
theorem inked_compound (first : Token) (parts : List Token) :
    inked (first.compound parts).text = inked (rawText (first :: parts)) := by
  have join (tokens : List Token) : inked (joinWords (tokens.map Token.raw)).toList =
      inked (rawText tokens) := by
    rw [inked_joinWords, rawText, inked, List.filter_flatMap, List.flatMap_map]
    rfl
  exact join (first :: parts)

/-- Fusing keywords keeps what tokens cover. -/
theorem Covers.fuseKeywords {tokens : List Token} (genuine : ∀ token ∈ tokens, token.Genuine)
    {offset : Nat} {text : List Char} (covers : Covers offset tokens text) :
    Covers offset (fuseKeywords tokens) text := by
  fun_induction SqlLayout.fuseKeywords tokens generalizing offset text with
  | case1 => exact covers
  | case2 token rest compound after found ih =>
    obtain ⟨-, words, -, parts, spelled, rfl⟩ := compoundAt?_eq_some found
    obtain ⟨taken, rfl, same, last, -⟩ := phrase?_split spelled
    obtain ⟨before, stretch, behind, rfl, blank, start, stop, ink, others⟩ := covers.stretch
    have later := ih (fun token inside => genuine token
      (List.mem_cons_of_mem _ (List.mem_append_right _ inside))) others
    have here : ∀ token ∈ taken, token.Genuine := fun token inside =>
      genuine token (List.mem_cons_of_mem _ (List.mem_append_left _ inside))
    refine Covers.token blank start ?_ ?_ later
    · rw [Token.compound, ← last]
      exact stop
    · rw [ink, inked_compound, rawText_cons, rawText_cons, inked_append, inked_append, ← same,
        inked_rawText_significant here]
  | case3 token rest found ih =>
    cases covers with
    | token blank start stop same others =>
      exact Covers.token blank start stop same
        (ih (fun token inside => genuine token (List.mem_cons_of_mem _ inside)) others)

end SqlLayout
