import SqlLayout.Text.Blank
import SqlLayout.Token.Compound

/-!
# Bodies of routines in other languages

After `LANGUAGE <name> AS` a routine may be given as bare text up to the next semicolon. All its
tokens become one verbatim token, without blanks at its end and without spaces and tabs at its
start. A body that is written as a string or between dollar signs is one token already.
-/

namespace SqlLayout

open Text

/-- Whether a token of this kind names a language. -/
def Kind.namesLanguage : Kind → Bool
  | .identifier | .keyword => true
  | _ => false

/-- Whether a token of this kind ends a statement. -/
def Kind.endsStatement : Kind → Bool
  | .semicolon | .eof => true
  | _ => false

/-- Whether a token of this kind, as the first of a body, leaves nothing to join. -/
def Kind.isWholeBody : Kind → Bool
  | .string | .dollarString | .semicolon | .eof => true
  | _ => false

/-- The tokens through the first that is not layout, if a test accepts that one, and the tokens
behind it. -/
def throughSignificant (accepts : Token → Bool) (tokens : List Token) :
    Option (List Token × List Token) :=
  match skipLayout tokens with
  | [] => none
  | token :: rest =>
    if accepts token then some (tokens.takeWhile Token.isLayout ++ [token], rest) else none

/-- The name and the `AS` behind a `LANGUAGE` with the layout before them, and the tokens of the
body and beyond, if the body is bare text. -/
def languageHeader? (tokens : List Token) : Option (List Token × List Token) := do
  let (name, afterName) ← throughSignificant (·.kind.namesLanguage) tokens
  let (mark, afterMark) ← throughSignificant (Token.isKeyword "AS") afterName
  let first ← nextSignificant afterMark
  if first.kind.isWholeBody then none else some (name ++ mark, afterMark)

/-- The text of a body: the raw text of its tokens, trimmed. -/
def bodyText (body : List Token) : String :=
  let text := trimEnd (body.flatMap fun token => token.raw.toList)
  String.ofList (text.dropWhile fun c => c == ' ' || c == '\t')

/-- The token that a body becomes, if its text is not empty. -/
def bodyToken (body : List Token) : Option Token :=
  match body.head?, body.getLast? with
  | some first, some last =>
    let text := bodyText body
    if text = "" then none
    else some ⟨.dollarString, text, text, ⟨first.span.start, last.span.stop⟩⟩
  | _, _ => none

/-- The header, the body and the tokens behind it for a token that starts a routine given as bare
text. -/
def bodyAt? (token : Token) (rest : List Token) :
    Option (List Token × List Token × List Token) :=
  if token.isKeyword "LANGUAGE" then
    (languageHeader? rest).map fun (header, text) =>
      (token :: header, text.takeWhile (!·.kind.endsStatement),
        text.dropWhile (!·.kind.endsStatement))
  else none

/-- What is behind an accepted token is shorter. -/
theorem length_le_of_throughSignificant {accepts : Token → Bool} {tokens taken after : List Token}
    (h : throughSignificant accepts tokens = some (taken, after)) :
    after.length ≤ tokens.length := by
  have shorter : (skipLayout tokens).length ≤ tokens.length :=
    (List.dropWhile_sublist _).length_le
  unfold throughSignificant at h
  split at h
  · contradiction
  · rename_i front
    rw [front, List.length_cons] at shorter
    split at h
    · cases h
      omega
    · contradiction

/-- What is behind a header is shorter. -/
theorem length_le_of_languageHeader? {tokens header after : List Token}
    (h : languageHeader? tokens = some (header, after)) : after.length ≤ tokens.length := by
  simp only [languageHeader?, Option.bind_eq_bind, Option.bind_eq_some_iff] at h
  obtain ⟨⟨name, afterName⟩, named, ⟨mark, afterMark⟩, marked, first, -, whole⟩ := h
  split at whole
  · exact nomatch whole
  · cases whole
    exact Nat.le_trans (length_le_of_throughSignificant marked)
      (length_le_of_throughSignificant named)

/-- What is behind a body is shorter. -/
theorem length_le_of_bodyAt? {token : Token} {rest header body after : List Token}
    (h : bodyAt? token rest = some (header, body, after)) : after.length ≤ rest.length := by
  unfold bodyAt? at h
  split at h
  · obtain ⟨⟨header, text⟩, found, same⟩ := Option.map_eq_some_iff.1 h
    cases same
    exact Nat.le_trans (List.dropWhile_sublist _).length_le (length_le_of_languageHeader? found)
  · exact nomatch h

/-- Tokens with every bare body of a routine made one token. -/
def fuseBodies : List Token → List Token
  | [] => []
  | token :: rest =>
    match _found : bodyAt? token rest with
    | some (header, body, after) => header ++ (bodyToken body).toList ++ fuseBodies after
    | none => token :: fuseBodies rest
termination_by tokens => tokens.length
decreasing_by
  · exact Nat.lt_succ_of_le (length_le_of_bodyAt? _found)
  · exact Nat.lt_succ_self _

/-- Tokens with bodies and compound keywords made one token each. Bodies go first, so that the
keywords inside them stay as they are. -/
def fuse (tokens : List Token) : List Token :=
  fuseKeywords (fuseBodies tokens)

end SqlLayout
