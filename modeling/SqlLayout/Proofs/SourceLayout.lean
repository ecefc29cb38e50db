import Mathlib.Data.List.Forall2
import SqlLayout.Proofs.Relayout

/-!
# The layout of a source does not matter

Two token lists that agree apart from layout and from the places of their tokens (`SameTokens`) are
fused to lists that agree again and are written alike (`SameTokens.render_eq`). So the spacing of a
source has no influence on its formatted text, as long as no bare body is copied from it.
-/

namespace SqlLayout

/-- Whether two tokens agree in everything but their places. -/
structure Token.SameText (token other : Token) : Prop where
  /-- The kinds agree. -/
  kind : token.kind = other.kind
  /-- The canonical texts agree. -/
  value : token.value = other.value
  /-- The spellings agree. -/
  raw : token.raw = other.raw

/-- Tokens agree in everything but their places exactly when they are the same without places. -/
theorem Token.sameText_iff {token other : Token} :
    token.SameText other ↔ token.unplaced = other.unplaced := by
  constructor
  · rintro ⟨kind, value, raw⟩
    rw [unplaced, unplaced, kind, value, raw]
  · intro same
    obtain ⟨kind, value, raw, -⟩ := Token.mk.inj same
    exact ⟨kind, value, raw⟩

/-- Whether tokens agree in everything but their places can be decided. -/
instance (token other : Token) : Decidable (token.SameText other) :=
  decidable_of_iff _ Token.sameText_iff.symm

/-- Whether two token lists agree in order, apart from layout and from the places of the tokens. -/
def SameTokens (tokens others : List Token) : Prop :=
  List.Forall₂ Token.SameText (significant tokens) (significant others)

/-- Whether two token lists agree can be decided. -/
instance (tokens others : List Token) : Decidable (SameTokens tokens others) :=
  inferInstanceAs (Decidable (List.Forall₂ _ _ _))

/-- Token lists agree exactly when their significant tokens are the same without places. -/
theorem sameTokens_iff {tokens others : List Token} :
    SameTokens tokens others ↔
      (significant tokens).map Token.unplaced = (significant others).map Token.unplaced := by
  rw [← List.forall₂_eq_eq_eq, List.forall₂_map_left_iff, List.forall₂_map_right_iff, SameTokens]
  exact ⟨List.Forall₂.imp fun _ _ => Token.sameText_iff.1,
    List.Forall₂.imp fun _ _ => Token.sameText_iff.2⟩

/-- What is written for a token list depends on its significant tokens without their places. -/
theorem writtenText_significant (options : Options) (commas : CommaPosition) (tokens : List Token) :
    writtenText options (pieces commas tokens) =
      writtenText options (pieces commas ((significant tokens).map Token.unplaced)) := by
  have shown (token : Token) :
      token.unplaced.shown options.keywordCase = token.shown options.keywordCase := rfl
  rw [faithful_unplaced.pieces_map, writtenText_relabel options shown, pieces_significant]

namespace SameTokens

variable {tokens others : List Token} (same : SameTokens tokens others)

include same

/-- Lists that agree are fused to lists that agree. -/
theorem fuseKeywords : SameTokens (fuseKeywords tokens) (fuseKeywords others) := by
  rw [sameTokens_iff] at same ⊢
  rw [significant_fuseKeywords, significant_fuseKeywords, ← faithful_unplaced.fuseKeywords_map,
    ← faithful_unplaced.fuseKeywords_map, same]

/-- Lists that agree are written alike. -/
theorem render_eq (options : Options) : render options tokens = render options others := by
  rw [render, render, writtenText_significant, writtenText_significant options _ others,
    sameTokens_iff.1 same]

end SameTokens

/-- The layout of a source has no influence: token lists that agree apart from it are fused to lists
that agree and are written alike, and sources without bare bodies whose tokens agree apart from it
have the same formatted text. -/
theorem format_ignores_layout :
    (∀ tokens others : List Token, SameTokens tokens others →
      SameTokens (fuseKeywords tokens) (fuseKeywords others) ∧
        ∀ options, render options (fuseKeywords tokens) = render options (fuseKeywords others)) ∧
    ∀ source other : String, fuseBodies (tokenize source) = tokenize source →
      fuseBodies (tokenize other) = tokenize other → SameTokens (tokenize source) (tokenize other) →
      ∀ options, format options source = format options other := by
  refine ⟨fun tokens others same => ⟨same.fuseKeywords, same.fuseKeywords.render_eq⟩, ?_⟩
  intro source other bare bareOther same options
  rw [format, format, fuse, fuse, bare, bareOther]
  exact same.fuseKeywords.render_eq options

/-- A query that is spread over lines, with a compound keyword cut by a line break, is formatted like
the same query on one line. -/
theorem format_ignores_layout_query :
    SameTokens (tokenize "select\n\n   a ,b\r\nfrom    t group\n\tby 1")
      (tokenize "select a, b from t group by 1") ∧
    format ⟨4, .lower, .leading⟩ "select\n\n   a ,b\r\nfrom    t group\n\tby 1" =
      format ⟨4, .lower, .leading⟩ "select a, b from t group by 1" := by
  have same : SameTokens (tokenize "select\n\n   a ,b\r\nfrom    t group\n\tby 1")
      (tokenize "select a, b from t group by 1") := by decide +kernel
  exact ⟨same, format_ignores_layout.2 _ _ (by decide +kernel) (by decide +kernel) same _⟩

end SqlLayout
