import SqlLayout.Text.Printable

/-!
# Quoted text

Messages show a text between quotes, on one line and in printable characters only. The quote is
an apostrophe unless the text has apostrophes and no double quote. The quote in use, the
backslash and every unprintable character are written as escapes.
-/

namespace SqlLayout.Text

/-- The last `width` lower-case hexadecimal digits of a number. -/
def hexDigits : (width : Nat) → Nat → List Char
  | 0, _ => []
  | width + 1, n => hexDigits width (n / 16) ++ [Nat.digitChar (n % 16)]

/-- The hexadecimal escape of a character, in two, four or eight digits. -/
def hexEscape (c : Char) : List Char :=
  if c.toNat < 0x100 then '\\' :: 'x' :: hexDigits 2 c.toNat
  else if c.toNat < 0x10000 then '\\' :: 'u' :: hexDigits 4 c.toNat
  else '\\' :: 'U' :: hexDigits 8 c.toNat

/-- A character as it is written between the given quotes. -/
def escaped (quote c : Char) : List Char :=
  if c = quote ∨ c = '\\' then ['\\', c]
  else if c = '\n' then ['\\', 'n']
  else if c = '\r' then ['\\', 'r']
  else if c = '\t' then ['\\', 't']
  else if isPrintable c then [c]
  else hexEscape c

/-- The quote that a text is written between. -/
def quoteFor (text : List Char) : Char :=
  if '\'' ∈ text ∧ '"' ∉ text then '"' else '\''

/-- A text between quotes. -/
def quotedChars (text : List Char) : List Char :=
  quoteFor text :: (text.flatMap (escaped (quoteFor text)) ++ [quoteFor text])

/-- A string between quotes. -/
def quoted (text : String) : String :=
  String.ofList (quotedChars text.toList)

end SqlLayout.Text
