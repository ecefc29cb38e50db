/-!
# Upper and lower case of words

Keywords are spelled in ASCII, so a word can only be a keyword when its upper-case spelling is
ASCII. Besides the ASCII letters themselves ten characters have such a spelling, some of them
with more than one letter; `upper` knows exactly these and leaves every other character as it
is, which keeps a word that holds one from being a keyword.
-/

namespace SqlLayout.Text

/-- The upper-case spelling of a character, where that spelling is ASCII. -/
def upperChar : Char → List Char
  | 'ß' => ['S', 'S']
  | 'ı' => ['I']
  | 'ſ' => ['S']
  | 'ﬀ' => ['F', 'F']
  | 'ﬁ' => ['F', 'I']
  | 'ﬂ' => ['F', 'L']
  | 'ﬃ' => ['F', 'F', 'I']
  | 'ﬄ' => ['F', 'F', 'L']
  | 'ﬅ' => ['S', 'T']
  | 'ﬆ' => ['S', 'T']
  | c => [c.toUpper]

/-- The upper-case spelling of a word. -/
def upper (word : String) : String :=
  String.ofList (word.toList.flatMap upperChar)

/-- The lower-case spelling of a keyword, which is ASCII. -/
def lower (word : String) : String :=
  String.ofList (word.toList.map Char.toLower)

end SqlLayout.Text
