import SqlLayout.Text.Blank
import SqlLayout.Text.Numeral

/-!
# Integers written by people

An integer argument may be surrounded by padding, carry a sign, be written in the decimal digits
of any script, start with zeros and have single underscores between its digits. A numeral of
more than `maxDigits` digits is refused.
-/

namespace SqlLayout.Text

/-- The greatest number of digits of an accepted integer. -/
def maxDigits : Nat := 4300

/-- Reads digits that a single underscore may separate, as their values. -/
def digitRun? : List Char → Option (List Nat)
  | [] => none
  | [c] => (decimalValue? c).map ([·])
  | c :: '_' :: rest => do return (← decimalValue? c) :: (← digitRun? rest)
  | c :: rest => do return (← decimalValue? c) :: (← digitRun? rest)

/-- The number that a list of decimal digits denotes. -/
def ofDigits (digits : List Nat) : Nat :=
  digits.foldl (fun value digit => 10 * value + digit) 0

/-- Reads an unsigned numeral. -/
def unsigned? (text : List Char) : Option Nat := do
  let digits ← digitRun? text
  if digits.length ≤ maxDigits then some (ofDigits digits) else none

/-- Whether a character may surround an integer: every blank but the four information separators
of ASCII. -/
def isPadding (c : Char) : Bool :=
  isBlank c && !(0x1C ≤ c.toNat && c.toNat ≤ 0x1F)

/-- A text without the padding at either end. -/
def trimPadding (text : List Char) : List Char :=
  ((text.dropWhile isPadding).reverse.dropWhile isPadding).reverse

/-- Reads an integer. -/
def integer? (text : String) : Option Int :=
  match trimPadding text.toList with
  | '-' :: rest => (unsigned? rest).map fun n => -(n : Int)
  | '+' :: rest => (unsigned? rest).map Int.ofNat
  | rest => (unsigned? rest).map Int.ofNat

end SqlLayout.Text
