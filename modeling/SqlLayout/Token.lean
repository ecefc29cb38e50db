/-!
# Tokens

A token is a piece of SQL text with its kind and its place in the source. Its `raw` text is what
the source spells; its `value` is the canonical text, which differs from it for keywords only.
-/

namespace SqlLayout

/-- What a token is. -/
inductive Kind where
  /-- A keyword or a compound of keywords. -/
  | keyword
  /-- A bare word that is no keyword, or a name in double quotes. -/
  | identifier
  /-- A name in backticks. -/
  | backtick
  /-- A placeholder that a caller or a template fills. -/
  | parameter
  /-- A number literal. -/
  | number
  /-- A string in apostrophes. -/
  | string
  /-- Text between double dollar signs, or the body of a routine in another language. -/
  | dollarString
  /-- A comma. -/
  | comma
  /-- An opening parenthesis. -/
  | lparen
  /-- A closing parenthesis. -/
  | rparen
  /-- A semicolon. -/
  | semicolon
  /-- A dot. -/
  | dot
  /-- An operator, or any character without a meaning of its own. -/
  | operator
  /-- A comment up to the end of its line. -/
  | comment
  /-- A comment between delimiters. -/
  | blockComment
  /-- Spaces and tabs. -/
  | space
  /-- The end of a line. -/
  | newline
  /-- The end of the source. -/
  | eof
deriving DecidableEq

namespace Kind

/-- The name of a kind in a token dump. -/
def name : Kind → String
  | .keyword => "KEYWORD"
  | .identifier => "IDENTIFIER"
  | .backtick => "BACKTICK"
  | .parameter => "PARAMETER"
  | .number => "NUMBER"
  | .string => "STRING"
  | .dollarString => "DOLLAR_STRING"
  | .comma => "COMMA"
  | .lparen => "LPAREN"
  | .rparen => "RPAREN"
  | .semicolon => "SEMICOLON"
  | .dot => "DOT"
  | .operator => "OPERATOR"
  | .comment => "COMMENT"
  | .blockComment => "BLOCK_COMMENT"
  | .space => "WS"
  | .newline => "NEWLINE"
  | .eof => "EOF"

/-- Spacing of the source, which is never written. -/
def isLayout : Kind → Bool
  | .space | .newline => true
  | _ => false

/-- Comments of either form. -/
def isComment : Kind → Bool
  | .comment | .blockComment => true
  | _ => false

end Kind

/-- A place in a source. -/
structure Position where
  /-- The line, from 1. -/
  line : Nat
  /-- The character within the line, from 1. -/
  column : Nat
  /-- The number of characters before the place. -/
  offset : Nat
deriving DecidableEq

namespace Position

/-- The place before the first character. -/
def first : Position := ⟨1, 1, 0⟩

/-- The place behind a character that does not end the line. -/
def nextColumn (place : Position) : Position :=
  ⟨place.line, place.column + 1, place.offset + 1⟩

/-- The place behind a character that ends the line. -/
def nextLine (place : Position) : Position :=
  ⟨place.line + 1, 1, place.offset + 1⟩

/-- The place behind a text. A line feed ends a line, and so does a carriage return that no line
feed follows. -/
def after (place : Position) : List Char → Position
  | [] => place
  | c :: rest =>
    if c = '\n' ∨ (c = '\r' ∧ rest.head? ≠ some '\n') then place.nextLine.after rest
    else place.nextColumn.after rest

end Position

/-- A stretch of a source. -/
structure Span where
  /-- The place before the first character. -/
  start : Position
  /-- The place behind the last character. -/
  stop : Position
deriving DecidableEq

/-- A piece of SQL text. -/
structure Token where
  /-- What the token is. -/
  kind : Kind
  /-- The canonical text. -/
  value : String
  /-- The text as the source spells it. -/
  raw : String
  /-- Where the source spells it. -/
  span : Span
deriving DecidableEq

namespace Token

/-- Whether the token is spacing of the source. -/
def isLayout (token : Token) : Bool := token.kind.isLayout

/-- Whether the token is a comment. -/
def isComment (token : Token) : Bool := token.kind.isComment

/-- Whether the token is the given keyword. -/
def isKeyword (word : String) (token : Token) : Bool :=
  token.kind == .keyword && token.value == word

/-- Whether the token is one of the given keywords. -/
def isKeywordOf (words : List String) (token : Token) : Bool :=
  token.kind == .keyword && words.contains token.value

end Token

end SqlLayout
