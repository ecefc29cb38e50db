import SqlLayout.Proofs.Coverage

/-!
# The tokens of a source tile it

Reading is total, and the tokens of a source lie side by side (`Tiles`): the first one starts the
source, each of the others starts where the one before it stops, and the end token stands behind the
last character. Every token spells the stretch of the source that its span names.
-/

namespace SqlLayout

open Text

/-- The characters of a source between the places of a span. -/
def Span.slice (span : Span) (source : List Char) : List Char :=
  (source.take span.stop.offset).drop span.start.offset

namespace Token

/-- Whether a token is the end of a source of the given length. -/
structure EndsAt (token : Token) (length : Nat) : Prop where
  /-- The token is an end token. -/
  kind : token.kind = .eof
  /-- Its canonical text is empty. -/
  value : token.value = ""
  /-- It spells nothing. -/
  raw : token.raw = ""
  /-- It starts behind the last character. -/
  start : token.span.start.offset = length
  /-- It stops where it starts. -/
  stop : token.span.stop.offset = length

/-- Whether a token stands in a source where its span says. -/
structure StandsIn (token : Token) (source : List Char) : Prop where
  /-- The token is not the end. -/
  going : token.kind ≠ .eof
  /-- The token is not empty. -/
  nonempty : token.raw ≠ ""
  /-- The span is as long as the token. -/
  stop : token.span.stop.offset = token.span.start.offset + token.raw.length
  /-- The token spells the stretch of its span. -/
  raw : token.raw.toList = token.span.slice source
  /-- The canonical text of a token that is no keyword is its spelling. -/
  plain : token.kind ≠ .keyword → token.value = token.raw
  /-- The canonical text of a keyword is its upper-case spelling, which is in the table. -/
  keyword : token.kind = .keyword → token.value = upper token.raw ∧ token.value ∈ Keyword.all

end Token

/-- Whether tokens tile a source from a place on: side by side, up to one end token. -/
inductive Tiles (source : List Char) : Position → List Token → Prop
  /-- The end of the source stands alone. -/
  | done {place : Position} {token : Token} (start : token.span.start = place)
    (ends : token.EndsAt source.length) : Tiles source place [token]
  /-- A token starts at the place, and the others where it stops. -/
  | token {place : Position} {token : Token} {rest : List Token} (start : token.span.start = place)
    (stands : token.StandsIn source) (others : Tiles source token.span.stop rest) :
    Tiles source place (token :: rest)

/-- Tokens that tile a source from a place on spell it from there on. -/
theorem Tiles.rawText_eq {source : List Char} {place : Position} {tokens : List Token}
    (tiles : Tiles source place tokens) : rawText tokens = source.drop place.offset := by
  induction tiles with
  | done start ends =>
    rename_i token
    have behind : source.drop token.span.start.offset = [] :=
      List.drop_eq_nil_of_le (Nat.le_of_eq ends.start.symm)
    rw [← start, behind, rawText_cons, Token.text, ends.raw]
    rfl
  | token start stands others ih =>
    rename_i token rest
    have split : (source.take token.span.stop.offset).drop token.span.start.offset ++
        source.drop token.span.stop.offset = source.drop token.span.start.offset := by
      rw [List.drop_take, stands.stop, Nat.add_sub_cancel_left, ← List.drop_drop,
        List.take_append_drop]
    rw [rawText_cons, ih, ← start, Token.text, stands.raw, Span.slice, split]

/-- The tokens of a text tile a source that ends with it. -/
theorem tiles_tokensFrom (before : List Char) (start : Position) (source : List Char)
    (place : start.offset = before.length) :
    Tiles (before ++ source) start (tokensFrom start source) := by
  fun_induction tokensFrom start source generalizing before with
  | case1 start =>
    have behind : start.offset = (before ++ []).length := by rw [List.append_nil, place]
    exact Tiles.done rfl ⟨rfl, rfl, rfl, behind, behind⟩
  | case2 start c source lexeme raw stop ih =>
    have whole : c :: source = c :: lexeme.tail ++ lexeme.rest := by
      rw [List.cons_append, Lexeme.tail_append_rest]
    have next : stop.offset = (before ++ c :: lexeme.tail).length := by
      rw [List.length_append, ← place]
      exact offset_after start (c :: lexeme.tail)
    have read : (Token.ofText lexeme.kind (c :: lexeme.tail)).ReadBefore lexeme.rest :=
      ⟨c, lexeme.tail, rfl, by rw [Lexeme.tail_append_rest]; rfl⟩
    have others := ih (before ++ c :: lexeme.tail) next
    rw [List.append_assoc, ← whole] at others
    refine Tiles.token rfl ⟨read.kind_ne_eof, ?_, ?_, ?_, read.value_eq_raw, fun keyword => ?_⟩ others
    · intro empty
      cases String.ofList_eq_empty_iff.1 empty
    · rw [String.length_ofList]
      exact offset_after start (c :: lexeme.tail)
    · have front : (before ++ c :: source).take stop.offset = before ++ c :: lexeme.tail := by
        rw [whole, ← List.append_assoc, next, List.take_left]
      rw [Span.slice, front, place, List.drop_left, String.toList_ofList]
    · have listed := read.listed keyword
      refine ⟨?_, listed⟩
      change canonicalText lexeme.kind raw = upper raw
      rw [canonicalText, if_pos keyword]

/-- The tokens of every source tile it, and together they spell it. -/
theorem tokenize_tiles (source : String) :
    Tiles source.toList Position.first (tokenize source) ∧
      rawText (tokenize source) = source.toList := by
  have tiles : Tiles source.toList Position.first (tokenize source) :=
    tiles_tokensFrom [] Position.first source.toList rfl
  exact ⟨tiles, tiles.rawText_eq⟩

end SqlLayout
