import SqlLayout.Options
import SqlLayout.Text.Spelling
import SqlLayout.Token

/-!
# Pieces of laid-out text

The layout of a token list is a list of pieces: the tokens themselves and the breaks, indentations
and spaces between them. Which pieces there are does not depend on the letter case of keywords or
on the width of a level; these two only decide how a piece is written.
-/

namespace SqlLayout

open Text

namespace Token

/-- The text of a token under a letter case for keywords. -/
def shown (keywordCase : KeywordCase) (token : Token) : String :=
  if token.kind = .keyword then
    match keywordCase with
    | .lower => lower token.value
    | .preserve => token.raw
    | _ => upper token.value
  else token.value

end Token

/-- A piece of laid-out text. -/
inductive Piece where
  /-- The end of a line. -/
  | newline
  /-- The indentation of a line, in levels. -/
  | indent (level : Int)
  /-- One space within a line. -/
  | space
  /-- A token. -/
  | word (token : Token)
deriving DecidableEq

/-- The spaces of an indentation. -/
def indentation (size level : Int) : List Char :=
  List.replicate (size * level).toNat ' '

namespace Piece

/-- A piece as it is written. -/
def text (options : Options) : Piece → List Char
  | .newline => ['\n']
  | .indent level => indentation options.indentSize level
  | .space => [' ']
  | .word token => (token.shown options.keywordCase).toList

end Piece

/-- The text of a list of pieces. -/
def writtenText (options : Options) (pieces : List Piece) : List Char :=
  pieces.flatMap (Piece.text options)

end SqlLayout
