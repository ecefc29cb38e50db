import SqlLayout.Text.Ranges

/-!
# Lines of a text

A text breaks into lines at every character that any system uses to end one, and a carriage
return with the line feed behind it ends one line. Text that is read from a file or a stream has
its carriage returns folded into line feeds first.
-/

namespace SqlLayout.Text

/-- The characters at which a text breaks into lines. -/
def lineBreakRanges : Ranges := [
  (0x0A, 0x0D), (0x1C, 0x1E), (0x85, 0x85), (0x2028, 0x2029)]

/-- Whether a character ends a line. -/
def isLineBreak (c : Char) : Bool :=
  lineBreakRanges.has c.toNat

/-- The lines of a text, without the characters that end them. A text that ends in a line break
has no further, empty line behind it. -/
def lines : List Char → List (List Char)
  | [] => []
  | '\r' :: '\n' :: rest => [] :: lines rest
  | c :: rest =>
    if isLineBreak c then [] :: lines rest
    else match lines rest with
      | [] => [[c]]
      | line :: others => (c :: line) :: others

/-- A text with every carriage return, and the line feed that may follow it, made one line
feed. -/
def unifyNewlines : List Char → List Char
  | [] => []
  | '\r' :: '\n' :: rest => '\n' :: unifyNewlines rest
  | c :: rest => (if c = '\r' then '\n' else c) :: unifyNewlines rest

/-- A string with its line breaks made line feeds. -/
def unifiedNewlines (text : String) : String :=
  String.ofList (unifyNewlines text.toList)

end SqlLayout.Text
