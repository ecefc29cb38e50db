import SqlLayout.Layout.Step
import SqlLayout.Text.Blank

/-!
# The layout of a token list

Tokens are laid out one by one from an initial state; layout tokens are passed over and the end
token stops the run. The formatted text is what the pieces spell, trimmed, with one line feed at
its end.
-/

namespace SqlLayout

open Text

/-- A token, the state behind it and the pieces it contributed. -/
structure Entry where
  /-- The token. -/
  token : Token
  /-- The state behind the token. -/
  state : State
  /-- The pieces that were written for the token. -/
  pieces : List Piece

/-- The course of a layout that starts in a state. -/
def courseFrom (commas : CommaPosition) (state : State) : List Token → List Entry
  | [] => []
  | token :: rest =>
    if token.isLayout then courseFrom commas state rest
    else if token.kind = .eof then []
    else
      let (next, pieces) := state.step commas token rest
      ⟨token, next, pieces⟩ :: courseFrom commas next rest

/-- The course of a layout. -/
def course (commas : CommaPosition) (tokens : List Token) : List Entry :=
  courseFrom commas {} tokens

/-- The pieces of a layout that starts in a state. -/
def piecesFrom (commas : CommaPosition) (state : State) (tokens : List Token) : List Piece :=
  (courseFrom commas state tokens).flatMap Entry.pieces

/-- The pieces of a layout. -/
def pieces (commas : CommaPosition) (tokens : List Token) : List Piece :=
  piecesFrom commas {} tokens

/-- A text without blanks around it and with one line feed at its end. -/
def finished (text : List Char) : String :=
  String.ofList (trim text ++ ['\n'])

/-- The formatted text of a token list. -/
def render (options : Options) (tokens : List Token) : String :=
  finished (writtenText options (pieces options.commaPosition tokens))

end SqlLayout
