import SqlLayout.Proofs.Compounds
import SqlLayout.Proofs.Conservation
import SqlLayout.Proofs.FusedBodies
import SqlLayout.Proofs.Tiling

/-!
# Where fused tokens come from

Fusing bodies and then keywords cuts the tokens of a source into stretches that each make one token, or
none if a body is blank (`exists_origins`). Tokens of a source that follow each other spell the part of
it from the start of the first to the stop of the last (`Tiles.slice_eq`), so the span of a fused token
names the text that the token was made from. The spans follow each other, and only blank characters
stand between them (`fuse_origins`).
-/

namespace SqlLayout

open Text

/-! ## Stretches -/

/-- A stretch of a token list that is fused. -/
inductive Origin where
  /-- A token that stays, or the keywords of a compound. -/
  | group (part : Group)
  /-- The tokens of a bare body. -/
  | body (tokens : List Token) (bare : Bare tokens)

namespace Origin

/-- The tokens that a stretch covers. -/
def stretch : Origin → List Token
  | .group part => part.stretch
  | .body tokens _ => tokens

/-- The token that a stretch makes; a blank body makes none. -/
def made : Origin → List Token
  | .group part => [part.token]
  | .body tokens _ => (bodyToken tokens).toList

end Origin

/-- Fusing bodies keeps the first token. -/
theorem head?_fuseBodies (tokens : List Token) : (fuseBodies tokens).head? = tokens.head? := by
  rw [← fst_markBodies, List.head?_map, head?_markBodies, Option.map_map]
  cases tokens.head? <;> rfl

/-- A token that ends a statement is neither layout nor a keyword. -/
theorem barrier_of_endsStatement {token : Token} (ends : token.kind.endsStatement = true) :
    token.isLayout = false ∧ token.kind ≠ .keyword := by
  rw [Token.isLayout]
  rcases kind : token.kind <;> rw [kind] at ends <;> first | exact ⟨rfl, by decide⟩ | cases ends

/-- Keywords are fused apart before a list that starts with neither layout nor a keyword. -/
theorem fuseKeywords_append_barrier (tokens : List Token) {rest : List Token}
    (barrier : ∀ next ∈ rest.head?, next.isLayout = false ∧ next.kind ≠ .keyword) :
    fuseKeywords (tokens ++ rest) = fuseKeywords tokens ++ fuseKeywords rest := by
  cases rest with
  | nil => rw [List.append_nil, fuseKeywords, List.append_nil]
  | cons next rest =>
    obtain ⟨visible, plain⟩ := barrier next rfl
    rw [fuseKeywords_append visible plain, fuseKeywords_cons_none (compoundAt?_eq_none plain rest)]

/-- The token of a body is verbatim text. -/
theorem kind_of_bodyToken {body : List Token} {token : Token} (made : bodyToken body = some token) :
    token.kind = .dollarString := by
  obtain ⟨_, _, _, _, rfl⟩ := bodyToken_eq_some made
  rfl

/-- A body and what is behind it start with neither layout nor a keyword, once fused. -/
theorem barrier_of_bodyAt? {token : Token} {rest header body after : List Token}
    (found : bodyAt? token rest = some (header, body, after)) :
    ∀ next ∈ ((bodyToken body).toList ++ fuseBodies after).head?,
      next.isLayout = false ∧ next.kind ≠ .keyword := by
  obtain ⟨-, -, -, -, -, -, -, -, ends⟩ := bodyAt?_eq_some found
  intro next first
  cases made : bodyToken body with
  | none =>
    rw [made, Option.toList_none, List.nil_append, head?_fuseBodies] at first
    exact barrier_of_endsStatement (ends next first)
  | some fused =>
    rw [made, Option.toList_some, List.singleton_append, List.head?_cons] at first
    rw [← Option.some.inj first, Token.isLayout, kind_of_bodyToken made]
    exact ⟨rfl, by decide⟩

/-- A body is fused to one token, whatever its keywords are. -/
theorem fuseKeywords_body (body rest : List Token) :
    fuseKeywords ((bodyToken body).toList ++ rest) =
      (bodyToken body).toList ++ fuseKeywords rest := by
  cases made : bodyToken body with
  | none => rfl
  | some fused =>
    have plain : fused.kind ≠ .keyword := by rw [kind_of_bodyToken made]; decide
    exact fuseKeywords_cons_none (compoundAt?_eq_none plain rest)

/-- The groups of a list are stretches of it. -/
theorem exists_origins_of_groups (tokens : List Token) : ∃ origins : List Origin,
    origins.flatMap Origin.stretch = tokens ∧ origins.flatMap Origin.made = fuseKeywords tokens := by
  obtain ⟨groups, rfl, fused⟩ := exists_groups tokens
  refine ⟨groups.map Origin.group, ?_, ?_⟩
  · rw [List.flatMap_map]
    rfl
  · rw [← fused, List.flatMap_map, List.map_eq_flatMap]
    rfl

/-- Fusing bodies behind a list, and then all keywords, cuts the whole into stretches. -/
theorem exists_origins_behind (front tokens : List Token) : ∃ origins : List Origin,
    origins.flatMap Origin.stretch = front ++ tokens ∧
      origins.flatMap Origin.made = fuseKeywords (front ++ fuseBodies tokens) := by
  -- The tokens since the last body are kept in front: a compound may start at any of them.
  fun_induction fuseBodies tokens generalizing front with
  | case1 => exact exists_origins_of_groups _
  | case2 token rest header body after found ih =>
    obtain ⟨before, covers, fused⟩ := exists_origins_of_groups (front ++ header)
    obtain ⟨behind, coversToo, fusedToo⟩ := ih []
    refine ⟨before ++ .body body (bare_of_bodyAt? found) :: behind, ?_, ?_⟩
    · rw [List.flatMap_append, List.flatMap_cons, covers, coversToo, bodyAt?_split found, Origin.stretch]
      simp only [List.append_assoc, List.nil_append]
    · rw [List.append_assoc, ← List.append_assoc,
        fuseKeywords_append_barrier _ (barrier_of_bodyAt? found), fuseKeywords_body,
        List.flatMap_append, List.flatMap_cons, fused, fusedToo]
      rfl
  | case3 token rest found ih =>
    have shifted := ih (front ++ [token])
    rwa [List.append_assoc, List.append_assoc] at shifted

/-- Fusing cuts a token list into stretches and makes one token of each, or none of a blank body. -/
theorem exists_origins (tokens : List Token) : ∃ origins : List Origin,
    origins.flatMap Origin.stretch = tokens ∧ origins.flatMap Origin.made = fuse tokens :=
  exists_origins_behind [] tokens

/-! ## The text of a stretch -/

/-- Tokens that tile a source from a place on go on tiling it behind the first ones. -/
theorem Tiles.behind {source : List Char} {place : Position} {front back : List Token}
    (tiles : Tiles source place (front ++ back)) (more : back ≠ []) :
    ∃ later, Tiles source later back := by
  induction front generalizing place with
  | nil => exact ⟨place, tiles⟩
  | cons token front ih =>
    rw [List.cons_append] at tiles
    generalize shape : front ++ back = rest at tiles
    cases tiles with
    | done => exact absurd (List.append_eq_nil_iff.1 shape).2 more
    | token _ _ others =>
      rw [← shape] at others
      exact ih others

/-- Tokens that follow each other stop as many characters behind their start as they spell. -/
theorem Tiles.stop_eq {source : List Char} {place : Position} {first : Token}
    {others back : List Token} (tiles : Tiles source place (first :: (others ++ back))) :
    (others.getLast?.getD first).span.stop.offset =
      place.offset + (rawText (first :: others)).length := by
  induction others generalizing first place with
  | nil =>
    have spelled : rawText [first] = first.text := List.append_nil _
    rw [List.getLast?_nil, Option.getD_none, spelled, Token.text, String.length_toList]
    generalize [] ++ back = rest at tiles
    cases tiles with
    | done start ends => rw [ends.stop, ends.raw, ← start, ends.start]; rfl
    | token start stands _ => rw [stands.stop, start]
  | cons second others ih =>
    generalize shape : second :: others ++ back = tail at tiles
    cases tiles with
    | done => cases shape
    | token start stands rest =>
      rw [← shape] at rest
      rw [List.getLast?_cons, Option.getD_some, ih rest, stands.stop, start, rawText_cons first,
        List.length_append, Token.text, String.length_toList, Nat.add_assoc]

/-- Tokens that follow each other spell the part of the source from the start of the first to the stop of
the last. -/
theorem Tiles.slice_eq {source : List Char} {place : Position} {first : Token}
    {others back : List Token} (tiles : Tiles source place (first :: (others ++ back))) :
    (⟨first.span.start, (others.getLast?.getD first).span.stop⟩ : Span).slice source =
      rawText (first :: others) := by
  have start : first.span.start = place := by
    generalize others ++ back = rest at tiles
    cases tiles <;> assumption
  have ahead : source.drop place.offset = rawText (first :: others) ++ rawText back := by
    rw [← tiles.rawText_eq, ← List.cons_append, rawText_append]
  rw [Span.slice, start, tiles.stop_eq, List.drop_take, Nat.add_sub_cancel_left, ahead, List.take_left]

/-- Whether a text has spaces, tabs and line ends only. -/
def IsSpacing (text : List Char) : Prop :=
  ∀ c ∈ text, isGap c = true ∨ isLineEnd c = true

/-- Whether a text spells words in order, with spaces, tabs and line ends between them only. -/
inductive SpellsWords : List (List Char) → List Char → Prop
  /-- The last word ends the text. -/
  | last (word : List Char) : SpellsWords [word] word
  /-- A word comes first, and spacing before the others. -/
  | next {word spacing text : List Char} {words : List (List Char)}
    (blank : IsSpacing spacing) (others : SpellsWords words text) :
    SpellsWords (word :: words) (word ++ (spacing ++ text))

/-- The text of tokens that do not end in layout is spacing and the texts of the significant ones. -/
theorem exists_spellsWords {tokens : List Token} {last : Token} (ended : tokens.getLast? = some last)
    (visible : last.isLayout = false)
    (spacing : ∀ token ∈ tokens, token.isLayout = true → IsSpacing token.text) :
    ∃ blanks text, rawText tokens = blanks ++ text ∧ IsSpacing blanks ∧
      SpellsWords ((significant tokens).map Token.text) text := by
  induction tokens with
  | nil => cases ended
  | cons token rest ih =>
    have later : ∀ other ∈ rest, other.isLayout = true → IsSpacing other.text :=
      fun other member => spacing other (List.mem_cons_of_mem _ member)
    cases rest with
    | nil =>
      obtain rfl : token = last := Option.some.inj ended
      refine ⟨[], token.text, List.append_nil _, nofun, ?_⟩
      rw [significant_cons visible]
      exact SpellsWords.last token.text
    | cons next rest =>
      rw [List.getLast?_cons_cons] at ended
      obtain ⟨blanks, text, spelled, blank, spells⟩ := ih ended later
      rw [rawText_cons, spelled]
      cases layout : token.isLayout with
      | true =>
        refine ⟨token.text ++ blanks, text, (List.append_assoc ..).symm, fun c member => ?_, ?_⟩
        · rcases List.mem_append.1 member with here | behind
          · exact spacing token List.mem_cons_self layout c here
          · exact blank c behind
        · rw [significant_cons_layout layout]
          exact spells
      | false =>
        refine ⟨[], _, rfl, nofun, ?_⟩
        rw [significant_cons layout]
        exact SpellsWords.next blank spells

/-- The text of the keywords of a compound is theirs in order, with layout between them. -/
theorem Compound.spellsWords (joined : Compound)
    (spacing : ∀ token ∈ joined.behind, token.isLayout = true → IsSpacing token.text) :
    SpellsWords ((joined.first :: significant joined.behind).map Token.text)
      (rawText (joined.first :: joined.behind)) := by
  obtain ⟨last, ended, visible⟩ := joined.closed
  obtain ⟨blanks, text, spelled, blank, spells⟩ := exists_spellsWords ended visible spacing
  rw [rawText_cons, spelled]
  exact SpellsWords.next blank spells

/-- The stop of the last keyword of a compound is that of the last token. -/
theorem Compound.getLast?_significant (joined : Compound) :
    (significant joined.behind).getLast? = joined.behind.getLast? := by
  obtain ⟨last, ended, visible⟩ := joined.closed
  obtain ⟨front, split⟩ := List.getLast?_eq_some_iff.1 ended
  have alone : significant [last] = [last] := significant_cons visible []
  rw [split, significant_append, alone, List.getLast?_concat, List.getLast?_concat]

/-! ## Tokens of a source -/

/-- Layout of a source has spaces, tabs and line ends only. -/
theorem spacing_of_mem_tokenize {source : String} {token : Token} (member : token ∈ tokenize source)
    (layout : token.isLayout = true) : IsSpacing token.text := by
  rcases readBefore_or_end member with ⟨rest, read⟩ | ended
  · exact read.spacing_of_isLayout layout
  · have kind : token.kind = .eof := congrArg Token.kind ended
    rw [Token.isLayout, kind] at layout
    cases layout

/-- Whether the token that a stretch makes has the span of the text that it stands for. -/
def Origin.PointsInto (source : List Char) : Origin → Prop
  | .group (.single token) => token.span.slice source = token.raw.toList
  | .group (.compound joined) =>
    let token := (Group.compound joined).token
    let parts := (Group.compound joined).parts
    SpellsWords (parts.map fun part => part.raw.toList) (token.span.slice source) ∧
      token.raw = " ".intercalate (parts.map Token.raw)
  | .body tokens _ => ∀ token ∈ bodyToken tokens,
    token.raw.toList = (trimEnd (token.span.slice source)).dropWhile isGap

/-- The stretches of the tokens of a source point into it. -/
theorem pointsInto_of_stretch {source : String} {origin : Origin} {before after : List Token}
    (split : tokenize source = before ++ (origin.stretch ++ after)) :
    origin.PointsInto source.toList := by
  have slice (first : Token) (others : List Token) (whole : origin.stretch = first :: others) :
      (⟨first.span.start, (others.getLast?.getD first).span.stop⟩ : Span).slice source.toList =
        rawText (first :: others) := by
    have tiles := (tokenize_tiles source).1
    rw [split, whole] at tiles
    obtain ⟨place, later⟩ := tiles.behind (List.cons_ne_nil _ _)
    exact later.slice_eq
  match origin with
  | .group (.single token) =>
    have alone := slice token [] rfl
    exact alone.trans (List.append_nil _)
  | .group (.compound joined) =>
    have text := slice joined.first joined.behind rfl
    have spacing : ∀ token ∈ joined.behind, token.isLayout = true → IsSpacing token.text := by
      intro token member
      have inside : token ∈ tokenize source := by
        rw [split]
        exact List.mem_append_right _ (List.mem_append_left _ (List.mem_cons_of_mem _ member))
      exact spacing_of_mem_tokenize inside
    refine ⟨?_, (Group.token_spelled _).2⟩
    have spells := joined.spellsWords spacing
    rw [← text, ← joined.getLast?_significant] at spells
    exact spells
  | .body tokens _ =>
    intro token made
    obtain ⟨first, others, whole, -, rfl⟩ := bodyToken_eq_some made
    have text := slice first others whole
    change (String.ofList _).toList = _
    rw [String.toList_ofList, text, ← whole]
    rfl

/-! ## Spans of fused tokens -/

/-- Whether a token stops before another starts, with nothing but blank characters of the source between
them. -/
def Token.Precedes (source : List Char) (token next : Token) : Prop :=
  token.span.stop.offset ≤ next.span.start.offset ∧
    IsBlankText ((⟨token.span.stop, next.span.start⟩ : Span).slice source)

/-- Tokens that cover the rest of a source stop where they start or behind, and precede each other. -/
theorem Covers.ordered (source : List Char) {text : List Char} {offset : Nat} {tokens : List Token}
    (covers : Covers offset tokens text) (ahead : source.drop offset = text) :
    (∀ token ∈ tokens, token.span.start.offset ≤ token.span.stop.offset) ∧
      tokens.IsChain (Token.Precedes source) := by
  induction covers with
  | done blank => exact ⟨nofun, List.IsChain.nil⟩
  | token blank start stop same others ih =>
    rename_i offset token rest before stretch after
    have behind : source.drop token.span.stop.offset = after := by
      rw [stop, ← List.drop_drop, ← List.drop_drop, ahead, List.drop_left, List.drop_left]
    rw [← stop] at ih others
    obtain ⟨forward, chain⟩ := ih behind
    constructor
    · intro other member
      rcases List.mem_cons.1 member with rfl | later
      · omega
      · exact forward other later
    · cases others with
      | done => exact List.IsChain.singleton token
      | token blankToo next _ _ _ =>
        rename_i between _ _
        refine List.IsChain.cons_cons ⟨by omega, ?_⟩ chain
        rw [Span.slice, next, List.drop_take, Nat.add_sub_cancel_left, behind, List.take_left]
        exact blankToo

/-- The spans of the fused tokens of a source are in order, with blank characters between them only. Each
of these tokens is made from a stretch of the tokens of the source, and its span names the text of that
stretch: the token itself if it was not fused; the keywords of a compound in order, with spaces, tabs and
line ends between them; or a body with the blanks at its end and the spaces and tabs at its start. -/
theorem fuse_origins (source : String) :
    (∀ token ∈ fuse (tokenize source), token.span.start.offset ≤ token.span.stop.offset) ∧
    (fuse (tokenize source)).IsChain (Token.Precedes source.toList) ∧
    ∃ origins : List Origin, origins.flatMap Origin.stretch = tokenize source ∧
      origins.flatMap Origin.made = fuse (tokenize source) ∧
      ∀ origin ∈ origins, origin.PointsInto source.toList := by
  obtain ⟨-, covers, -⟩ := fuse_tokenize source
  obtain ⟨forward, chain⟩ := Covers.ordered source.toList covers rfl
  obtain ⟨origins, covered, fused⟩ := exists_origins (tokenize source)
  refine ⟨forward, chain, origins, covered, fused, fun origin member => ?_⟩
  obtain ⟨before, behind, rfl⟩ := List.append_of_mem member
  rw [List.flatMap_append, List.flatMap_cons] at covered
  exact pointsInto_of_stretch covered.symm

/-- The span of a compound has the line end between its keywords, and that of a body its blanks. -/
example : (fuse (tokenize "group\n by language a as  b ")).map
    (fun token => (token.raw, token.span.start.offset, token.span.stop.offset)) =
    [("group by", 0, 9), (" ", 9, 10), ("language", 10, 18), (" ", 18, 19), ("a", 19, 20),
      (" ", 20, 21), ("as", 21, 23), ("b", 23, 27), ("", 27, 27)] := by
  decide +kernel

end SqlLayout
