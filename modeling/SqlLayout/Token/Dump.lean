import SqlLayout.Text.Quoted
import SqlLayout.Token

/-!
# Token dumps

A dump shows one token a line: the line and column where it starts, its kind and its quoted
value, in padded columns.
-/

namespace SqlLayout

open Text

/-- A text padded with spaces to a width. -/
def padRight (width : Nat) (text : String) : String :=
  text ++ String.ofList (List.replicate (width - text.length) ' ')

namespace Token

/-- The line of a token in a dump. -/
def dumpLine (token : Token) : String :=
  let start := token.span.start
  Nat.repr start.line ++ ":" ++ padRight 4 (Nat.repr start.column) ++ " " ++
    padRight 14 token.kind.name ++ " " ++ quoted token.value ++ "\n"

end Token

/-- The dump of a token list, with or without layout tokens. -/
def dumpTokens (layout : Bool) (tokens : List Token) : String :=
  String.join ((tokens.filter fun token => layout || !token.isLayout).map Token.dumpLine)

end SqlLayout
