import SqlLayout.Proofs.Conservation

/-!
# Compounds as they are written

A compound is written as its parts with single spaces between them. So the layout of fused tokens is,
as a text, a layout of the tokens they were fused from (`spread_ungrouped`).
-/

namespace SqlLayout

open Text State

/-! ## The text of a compound -/

/-- A change of words that leaves the spaces between them is a change of each word. -/
theorem joinWords_map {change : String → String} (none : change "" = "")
    (join : ∀ first second, change (first ++ " " ++ second) = change first ++ " " ++ change second)
    (words : List String) : joinWords (words.map change) = change (joinWords words) := by
  fun_induction joinWords words with
  | case1 => exact none.symm
  | case2 word => rfl
  | case3 word words more ih =>
    cases words with
    | nil => exact absurd rfl more
    | cons second others =>
      rw [join, ← ih]
      rfl

/-- The upper-case spelling of words that are put together. -/
theorem upper_join (first second : String) :
    upper (first ++ " " ++ second) = upper first ++ " " ++ upper second := by
  have space : " ".toList.flatMap upperChar = " ".toList := by decide
  rw [upper, upper, upper, String.toList_append, String.toList_append, List.flatMap_append,
    List.flatMap_append, space, String.ofList_append, String.ofList_append, String.ofList_toList]

/-- The lower-case spelling of words that are put together. -/
theorem lower_join (first second : String) :
    lower (first ++ " " ++ second) = lower first ++ " " ++ lower second := by
  have space : " ".toList.map Char.toLower = " ".toList := by decide
  rw [lower, lower, lower, String.toList_append, String.toList_append, List.map_append,
    List.map_append, space, String.ofList_append, String.ofList_append, String.ofList_toList]

/-- A compound is shown as its parts are. -/
theorem shown_compound (keywordCase : KeywordCase) {first : Token} {parts : List Token}
    (keywords : ∀ part ∈ first :: parts, part.kind = .keyword) :
    (first.compound parts).shown keywordCase =
      joinWords ((first :: parts).map (Token.shown keywordCase)) := by
  have each (spell : Token → String)
      (same : ∀ part : Token, part.kind = .keyword → part.shown keywordCase = spell part) :
      (first :: parts).map (Token.shown keywordCase) = (first :: parts).map spell :=
    List.map_congr_left fun part member => same part (keywords part member)
  have capitals (name : KeywordCase) (same : ∀ token : Token, token.kind = .keyword →
      token.shown name = upper token.value) (this : keywordCase = name) :
      (first.compound parts).shown keywordCase =
        joinWords ((first :: parts).map (Token.shown keywordCase)) := by
    subst this
    rw [each _ same, same _ rfl, Token.compound, ← joinWords_map rfl upper_join, List.map_map]
    rfl
  cases keywordCase with
  | upper => exact capitals .upper (fun _ keyword => if_pos keyword) rfl
  | other name => exact capitals (.other name) (fun _ keyword => if_pos keyword) rfl
  | lower =>
    have same : ∀ token : Token, token.kind = .keyword → token.shown .lower = lower token.value :=
      fun _ keyword => if_pos keyword
    rw [each _ same, same _ rfl, Token.compound, ← joinWords_map rfl lower_join, List.map_map]
    rfl
  | preserve =>
    have same : ∀ token : Token, token.kind = .keyword → token.shown .preserve = token.raw :=
      fun _ keyword => if_pos keyword
    rw [each _ same, same _ rfl]
    rfl

/-- The pieces of keywords with single spaces before them. -/
def spacedOut (parts : List Token) : List Piece :=
  parts.flatMap fun part => [.space, .word part]

/-- A compound is written as its parts with single spaces between them. -/
theorem writtenText_compound (options : Options) {first : Token} {parts : List Token}
    (keywords : ∀ part ∈ first :: parts, part.kind = .keyword) (rest : List Piece) :
    writtenText options (.word (first.compound parts) :: rest) =
      writtenText options (.word first :: (spacedOut parts ++ rest)) := by
  have joined (first : Token) (parts : List Token) :
      (joinWords ((first :: parts).map (Token.shown options.keywordCase))).toList =
        (first.shown options.keywordCase).toList ++ writtenText options (spacedOut parts) := by
    induction parts generalizing first with
    | nil => simp [joinWords, spacedOut, writtenText]
    | cons second parts ih =>
      have spaced : writtenText options (spacedOut (second :: parts)) =
          ' ' :: ((second.shown options.keywordCase).toList ++
            writtenText options (spacedOut parts)) := by
        simp [spacedOut, writtenText, Piece.text]
      rw [spaced, ← ih second, List.map_cons, List.map_cons, joinWords, String.toList_append,
        String.toList_append, List.append_assoc]
      · rfl
      · simp
  rw [writtenText_word, writtenText_word, shown_compound _ keywords, joined, writtenText_append,
    List.append_assoc]

/-! ## Layouts of compounds -/

/-- Whether two token lists, read backwards, matter alike for the token behind them. -/
structure Alike (earlier others : List Token) : Prop where
  /-- The last tokens are of one kind. -/
  kind : earlier.head?.map Token.kind = others.head?.map Token.kind
  /-- A header in the second is one in the first. -/
  header : Introduces others → Introduces earlier

/-- Lists that matter alike have last tokens of one kind. -/
theorem Alike.last {earlier others : List Token} (alike : Alike earlier others) {last : Token}
    (found : others.head? = some last) :
    ∃ before, earlier.head? = some before ∧ before.kind = last.kind := by
  have kinds := alike.kind
  rw [found, Option.map_some] at kinds
  exact Option.map_eq_some_iff.1 kinds

/-- A token that stands apart does so behind tokens that matter alike. -/
theorem Alike.parted {earlier others : List Token} (alike : Alike earlier others)
    {gap : List Piece} {token other : Token} (parted : Parted earlier gap token)
    (kind : other.kind = token.kind) (starts : other.startsLine = token.startsLine) :
    Parted others gap other where
  blank := parted.blank
  apart := by
    intro last found
    obtain ⟨before, same, sameKind⟩ := alike.last found
    have comment : before.isComment = last.isComment := by
      rw [Token.isComment, sameKind, Token.isComment]
    rcases parted.apart before same with newline | ⟨noComment, space | ⟨none, abuts⟩⟩
    · exact Or.inl newline
    · exact Or.inr ⟨comment ▸ noComment, Or.inl space⟩
    · refine Or.inr ⟨comment ▸ noComment, Or.inr ⟨none, ?_⟩⟩
      unfold Token.Abuts at abuts ⊢
      rwa [kind, starts, ← sameKind]
  body := fun header isBody => by
    rw [starts]
    exact parted.body (alike.header header) (kind ▸ isBody)
  closing := by
    intro last found verbatim mark
    obtain ⟨before, same, sameKind⟩ := alike.last found
    exact parted.closing before same (sameKind.trans verbatim) (kind ▸ mark)

/-- One more token behind lists that matter alike. -/
theorem Alike.cons {earlier others : List Token} (alike : Alike earlier others) (token : Token) :
    Alike (token :: earlier) (token :: others) where
  kind := rfl
  header := by
    rintro ⟨mark, name, rest, same, isMark, apart⟩
    obtain ⟨rfl, rfl⟩ := List.cons.inj same
    have kinds := alike.kind
    cases earlier with
    | nil => cases kinds
    | cons before earlier =>
      have sameKind : before.kind = name.kind := by simpa using kinds
      exact ⟨token, before, earlier, rfl, isMark, sameKind ▸ apart⟩

/-- Keywords may follow a keyword with single spaces between them. -/
theorem spread_spacedOut {parts tokens earlier : List Token} {last : Token} {pieces : List Piece}
    (keyword : last.kind = .keyword) (keywords : ∀ part ∈ parts, part.kind = .keyword)
    (spread : Spread (parts.reverse ++ last :: earlier) tokens pieces) :
    Spread (last :: earlier) (parts ++ tokens) (spacedOut parts ++ pieces) := by
  induction parts generalizing last earlier with
  | nil => exact spread
  | cons part parts ih =>
    have isKeyword := keywords part List.mem_cons_self
    have parted : Parted (last :: earlier) [.space] part :=
      { blank := by simp [Piece.isGap]
        apart := by
          intro before same
          obtain rfl : last = before := by simpa using same
          refine Or.inr ⟨?_, Or.inl rfl⟩
          rw [Token.isComment, keyword]
          rfl
        body := by
          intro _ isBody
          rw [isKeyword] at isBody
          cases isBody
        closing := by
          intro _ _ _ mark
          rw [isKeyword] at mark
          cases mark }
    rw [List.reverse_cons, List.append_assoc, List.singleton_append] at spread
    exact Spread.word parted
      (ih isKeyword (fun other member => keywords other (List.mem_cons_of_mem _ member)) spread)

/-- Behind a compound no header ends, and none ends behind its parts. -/
theorem alike_compound {first : Token} {parts : List Token}
    (keywords : ∀ part ∈ parts, part.kind = .keyword)
    (listed : parts.map Token.value ∈ Keyword.continuations first.value)
    (earlier others : List Token) :
    Alike (first.compound parts :: earlier) (parts.reverse ++ first :: others) := by
  obtain ⟨nonempty, noMark⟩ := continuations_spec listed
  obtain ⟨front, last, rfl⟩ : ∃ front last, parts = front ++ [last] := by
    refine ⟨parts.dropLast, parts.getLast (by simpa using nonempty), ?_⟩
    rw [List.dropLast_append_getLast]
  have isKeyword := keywords last (by simp)
  rw [List.reverse_append, List.reverse_singleton, List.singleton_append, List.cons_append]
  refine ⟨?_, ?_⟩
  · rw [List.head?_cons, List.head?_cons, Option.map_some, Option.map_some, isKeyword]
    rfl
  · rintro ⟨mark, name, rest, same, isMark, -⟩
    obtain ⟨rfl, -⟩ := List.cons.inj same
    refine absurd ?_ noMark
    rw [← Token.value_of_isKeyword isMark]
    simp

/-- The first word of a compound starts it. -/
theorem startsLine_compound {first : Token} {parts : List Token}
    (visible : first.value.toList ≠ []) :
    first.startsLine = (first.compound parts).startsLine := by
  have front : (joinWords ((first :: parts).map Token.value)).toList.head? =
      first.value.toList.head? := by
    cases parts with
    | nil => rfl
    | cons second parts =>
      obtain ⟨c, rest, same⟩ := List.exists_cons_of_ne_nil visible
      rw [List.map_cons, List.map_cons, joinWords, String.toList_append, String.toList_append, same]
      · rfl
      · simp
  rw [Token.startsLine, Token.startsLine, Token.compound]
  rw [← front]

/-- The layout of fused tokens is, as a text, a layout of the tokens they were fused from. -/
theorem spread_ungrouped (options : Options) {fused tokens : List Token}
    (grouped : Grouped fused tokens) (visible : ∀ token ∈ tokens, token.value.toList ≠ [])
    {earlier others : List Token} (alike : Alike earlier others) {pieces : List Piece}
    (spread : Spread earlier fused pieces) :
    ∃ parts, Spread others tokens parts ∧
      writtenText options parts = writtenText options pieces := by
  induction grouped generalizing earlier others pieces with
  | nil =>
    cases spread with
    | done _ breaks => exact ⟨_, Spread.done others breaks, rfl⟩
  | single grouped ih =>
    cases spread with
    | word parted spread =>
      rename_i token _ _ gap _
      obtain ⟨parts, spread, same⟩ :=
        ih (fun token member => visible token (List.mem_cons_of_mem _ member)) (alike.cons token)
          spread
      refine ⟨_, Spread.word (alike.parted parted rfl rfl) spread, ?_⟩
      rw [writtenText_append, writtenText_append, writtenText_word, writtenText_word, same]
  | compound keyword keywords listed grouped ih =>
    rename_i first parts _ _
    cases spread with
    | word parted spread =>
      rename_i gap _
      have rest := ih (fun token member => visible token
        (List.mem_cons_of_mem _ (List.mem_append_right _ member)))
        (alike_compound keywords listed earlier others) spread
      obtain ⟨words, spread, same⟩ := rest
      have starts : first.startsLine = (first.compound parts).startsLine :=
        startsLine_compound (visible first List.mem_cons_self)
      refine ⟨_, Spread.word (alike.parted parted keyword starts)
        (spread_spacedOut keyword keywords spread), ?_⟩
      have all : ∀ part ∈ first :: parts, part.kind = .keyword := by
        intro part member
        rcases List.mem_cons.1 member with rfl | inside
        · exact keyword
        · exact keywords part inside
      rw [writtenText_append, writtenText_append, writtenText_compound options all,
        writtenText_word, writtenText_word, writtenText_append, writtenText_append, same]

end SqlLayout
