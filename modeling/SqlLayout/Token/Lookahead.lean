import SqlLayout.Keyword
import SqlLayout.Token

/-!
# Looking ahead

Layout decisions at a token may depend on the tokens behind it. Every function here takes these
tokens and looks no further than its answer needs.
-/

namespace SqlLayout

/-- The tokens behind leading layout. -/
def skipLayout (tokens : List Token) : List Token :=
  tokens.dropWhile Token.isLayout

/-- The first token that is not layout. -/
def nextSignificant (tokens : List Token) : Option Token :=
  (skipLayout tokens).head?

/-- The first token that is neither layout nor a comment. -/
def nextMeaningful (tokens : List Token) : Option Token :=
  tokens.find? fun token => !token.isLayout && !token.isComment

/-- The commas before the parenthesis that closes the region around the tokens, at the given depth
of parentheses opened within it; commas inside those do not count. -/
def argumentCommas (depth : Nat) : List Token → Nat
  | [] => 0
  | token :: rest =>
    match token.kind with
    | .lparen => argumentCommas (depth + 1) rest
    | .rparen => if depth = 0 then 0 else argumentCommas (depth - 1) rest
    | .comma => (if depth = 0 then 1 else 0) + argumentCommas depth rest
    | _ => argumentCommas depth rest

/-- The number of arguments of a call whose opening parenthesis is right before the tokens. -/
def argumentCount (tokens : List Token) : Nat :=
  argumentCommas 0 tokens + 1

/-- The commas of the selection list at the front of the tokens, at the given depths of open
parentheses and CASE expressions. Commas within either do not count. The list ends at a clause
keyword, a semicolon, an unopened closing parenthesis or the end of the source. -/
def selectionCommas (depth caseDepth : Nat) : List Token → Nat
  | [] => 0
  | token :: rest =>
    if token.kind = .eof then 0
    else if token.kind = .lparen then selectionCommas (depth + 1) caseDepth rest
    else if token.kind = .rparen then
      if depth = 0 then 0 else selectionCommas (depth - 1) caseDepth rest
    else if 0 < depth then selectionCommas depth caseDepth rest
    else if token.kind = .semicolon then 0
    else if token.isKeyword "CASE" then selectionCommas depth (caseDepth + 1) rest
    else if 0 < caseDepth then
      selectionCommas depth (if token.isKeyword "END" then caseDepth - 1 else caseDepth) rest
    else if token.isKeywordOf Keyword.clauses then 0
    else if token.kind = .comma then 1 + selectionCommas depth caseDepth rest
    else selectionCommas depth caseDepth rest

/-- The number of items of a selection list whose SELECT is right before the tokens. -/
def selectionCount (tokens : List Token) : Nat :=
  selectionCommas 0 0 tokens + 1

end SqlLayout
