import SqlLayout.Text.Letter
import SqlLayout.Text.Numeral

/-!
# Characters of words

A word starts with a letter or an underscore and goes on with letters, numerals and underscores
of any script. Number literals are written in ASCII digits only.
-/

namespace SqlLayout.Text

/-- Whether a character can start a word. -/
def isWordStart (c : Char) : Bool :=
  c == '_' || isLetter c

/-- Whether a character can continue a word or a parameter name. -/
def isWordChar (c : Char) : Bool :=
  c == '_' || isLetter c || isNumeral c

/-- Whether a character is an ASCII digit. -/
def isDigit (c : Char) : Bool :=
  '0' ≤ c && c ≤ '9'

/-- A character that can start a word can also continue one. -/
theorem isWordChar_of_isWordStart {c : Char} (h : isWordStart c = true) : isWordChar c = true := by
  simp only [isWordStart, isWordChar, Bool.or_eq_true] at h ⊢
  exact Or.inl h

end SqlLayout.Text
