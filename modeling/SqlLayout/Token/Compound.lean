import SqlLayout.Keyword
import SqlLayout.Token.Lookahead

/-!
# Compound keywords

Keywords such as `GROUP` and `BY` that only act together become one token. The layout between
them is dropped; the compound spells its parts with single spaces, both in canonical form and as
the source has them.
-/

namespace SqlLayout

/-- Words with single spaces between them. -/
def joinWords : List String → String
  | [] => ""
  | [word] => word
  | word :: words => word ++ " " ++ joinWords words

/-- The keyword tokens that spell the given words, layout aside, and the tokens behind them. -/
def phrase? : List String → List Token → Option (List Token × List Token)
  | [], tokens => some ([], tokens)
  | word :: words, tokens =>
    match skipLayout tokens with
    | [] => none
    | token :: rest =>
      if token.isKeyword word then
        (phrase? words rest).map fun (parts, after) => (token :: parts, after)
      else none

namespace Token

/-- The token that a keyword and the keywords behind it make together. -/
def compound (first : Token) (others : List Token) : Token where
  kind := .keyword
  value := joinWords ((first :: others).map Token.value)
  raw := joinWords ((first :: others).map Token.raw)
  span := ⟨first.span.start, (others.getLast?.getD first).span.stop⟩

end Token

/-- The compound that starts at a token, and the tokens behind it. The first word sequence that
fits is taken. -/
def compoundAt? (token : Token) (rest : List Token) : Option (Token × List Token) :=
  if token.kind = .keyword then
    ((Keyword.continuations token.value).findSome? fun words => phrase? words rest).map
      fun (parts, after) => (token.compound parts, after)
  else none

/-- A phrase leaves at most the tokens it was looked for in. -/
theorem length_le_of_phrase? {words : List String} {tokens parts after : List Token}
    (h : phrase? words tokens = some (parts, after)) : after.length ≤ tokens.length := by
  induction words generalizing tokens parts with
  | nil =>
    simp only [phrase?, Option.some.injEq, Prod.mk.injEq] at h
    exact Nat.le_of_eq (congrArg List.length h.2.symm)
  | cons word words ih =>
    rw [phrase?] at h
    have shorter : (skipLayout tokens).length ≤ tokens.length :=
      (List.dropWhile_sublist _).length_le
    split at h
    · exact nomatch h
    · rename_i token rest front
      rw [front, List.length_cons] at shorter
      split at h
      · obtain ⟨⟨parts, after⟩, found, same⟩ := Option.map_eq_some_iff.1 h
        cases same
        exact Nat.le_trans (ih found) (by omega)
      · exact nomatch h

/-- A compound leaves at most the tokens behind its first. -/
theorem length_le_of_compoundAt? {token compound : Token} {rest after : List Token}
    (h : compoundAt? token rest = some (compound, after)) : after.length ≤ rest.length := by
  unfold compoundAt? at h
  split at h
  · obtain ⟨⟨parts, after⟩, found, same⟩ := Option.map_eq_some_iff.1 h
    cases same
    obtain ⟨words, -, spelled⟩ := List.exists_of_findSome?_eq_some found
    exact length_le_of_phrase? spelled
  · exact nomatch h

/-- Tokens with every compound keyword made one token. -/
def fuseKeywords : List Token → List Token
  | [] => []
  | token :: rest =>
    match _found : compoundAt? token rest with
    | some (compound, after) => compound :: fuseKeywords after
    | none => token :: fuseKeywords rest
termination_by tokens => tokens.length
decreasing_by
  · exact Nat.lt_succ_of_le (length_le_of_compoundAt? _found)
  · exact Nat.lt_succ_self _

end SqlLayout
