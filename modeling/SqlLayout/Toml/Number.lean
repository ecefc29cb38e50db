import SqlLayout.Decimal.Shortest
import SqlLayout.Options.Setting
import SqlLayout.Toml.Text

/-!
# Numbers and moments of configuration files

Integers in four bases, floating-point numbers, dates and times. A number ends where its grammar
ends; what may follow it is for the document to say.
-/

namespace SqlLayout.Toml

/-! ## Numbers -/

/-- The digits behind a first digit, where single underscores may stand between digits. -/
def moreDigits (isDigit : Char → Bool) : List Char → List Char × List Char
  | [] => ([], [])
  | '_' :: rest =>
    if rest.head?.any isDigit then moreDigits isDigit rest else ([], '_' :: rest)
  | c :: rest =>
    if isDigit c then (c :: (moreDigits isDigit rest).1, (moreDigits isDigit rest).2)
    else ([], c :: rest)

/-- One or more digits. -/
def digits? (isDigit : Char → Bool) (text : List Char) : Option (List Char × List Char) :=
  if text.head?.any isDigit then some (moreDigits isDigit text) else none

/-- The number that digits denote in a base. -/
def valueOf (base : Nat) (digits : List Char) : Nat :=
  digits.foldl (fun value digit => base * value + (hexValue? digit).getD 0) 0

/-- Whether a character is a digit of a base of at most sixteen. -/
def isDigitOf (base : Nat) (c : Char) : Bool :=
  (hexValue? c).any (· < base)

/-- An integer with a mark for its base. -/
def markedInteger? : List Char → Option (Setting × List Char)
  | '0' :: mark :: rest => do
    let base ← match mark with
      | 'x' => some 16
      | 'o' => some 8
      | 'b' => some 2
      | _ => none
    let (digits, after) ← digits? (isDigitOf base) rest
    return (.int (valueOf base digits), after)
  | _ => none

/-- The sign of a number: whether it is negative, and what is behind it. -/
def sign : List Char → Bool × List Char
  | '-' :: rest => (true, rest)
  | '+' :: rest => (false, rest)
  | text => (false, text)

/-- The digits before the point: a single zero, or digits that start with another one. -/
def wholeDigits? : List Char → Option (List Char × List Char)
  | '0' :: rest => some (['0'], rest)
  | text => digits? Char.isDigit text

/-- The digits behind the point, if there are any. -/
def fraction : List Char → List Char × List Char
  | '.' :: rest => (digits? Char.isDigit rest).getD ([], '.' :: rest)
  | text => ([], text)

/-- The exponent, if there is one. -/
def exponent? : List Char → Option (Int × List Char)
  | c :: rest =>
    if c = 'e' ∨ c = 'E' then do
      let (negative, unsigned) := sign rest
      let (digits, after) ← digits? Char.isDigit unsigned
      let size : Int := valueOf 10 digits
      return (if negative then -size else size, after)
    else none
  | [] => none

/-- A decimal integer or a floating-point number. -/
def decimalNumber? (text : List Char) : Option (Setting × List Char) := do
  let (negative, unsigned) := sign text
  let (whole, rest) ← wholeDigits? unsigned
  let (behind, afterFraction) := fraction rest
  let power := exponent? afterFraction
  if behind = [] ∧ power = none then
    let value : Int := valueOf 10 whole
    return (.int (if negative then -value else value), rest)
  else
    let (size, after) := power.getD (0, afterFraction)
    let shown := Decimal.shownDecimal (valueOf 10 (whole ++ behind)) (size - behind.length)
    return (.real (if negative then "-" ++ shown else shown), after)

/-- The number of digits of a decimal integer; none for a number of any other form. -/
def integerDigits? (text : List Char) : Option Nat := do
  let (whole, rest) ← wholeDigits? (sign text).2
  let (behind, afterFraction) := fraction rest
  if behind = [] ∧ exponent? afterFraction = none then some whole.length else none

/-- The floating-point numbers that are written as words. -/
def wordNumber? (text : List Char) : Option (Setting × List Char) :=
  match sign text with
  | (negative, 'i' :: 'n' :: 'f' :: rest) => some (.real (if negative then "-inf" else "inf"), rest)
  | (_, 'n' :: 'a' :: 'n' :: rest) => some (.real "nan", rest)
  | _ => none

/-- A number of any form. -/
def number? (text : List Char) : Option (Setting × List Char) :=
  (markedInteger? text).or <| (decimalNumber? text).or <| wordNumber? text

/-! ## Dates and times -/

/-- A number of exactly the given count of digits. -/
def fixedDigits? (count : Nat) (text : List Char) : Option (Nat × List Char) :=
  let digits := text.take count
  if digits.length = count && digits.all Char.isDigit then
    some (valueOf 10 digits, text.drop count)
  else none

/-- A number of two digits within bounds. -/
def twoDigits? (least greatest : Nat) (text : List Char) : Option (Nat × List Char) := do
  let (value, rest) ← fixedDigits? 2 text
  if least ≤ value ∧ value ≤ greatest then some (value, rest) else none

/-- The document behind a given character. -/
def skip? (c : Char) : List Char → Option (List Char)
  | [] => none
  | d :: rest => if d = c then some rest else none

/-- A day of the calendar, as year, month and day; whether it exists is not checked. -/
def day? (text : List Char) : Option ((Nat × Nat × Nat) × List Char) := do
  let (year, rest) ← fixedDigits? 4 text
  let (month, rest) ← twoDigits? 1 12 (← skip? '-' rest)
  let (day, rest) ← twoDigits? 1 31 (← skip? '-' rest)
  return ((year, month, day), rest)

/-- The number of days of a month. -/
def daysOf (year month : Nat) : Nat :=
  if month = 2 then
    if year % 4 = 0 ∧ (year % 100 ≠ 0 ∨ year % 400 = 0) then 29 else 28
  else if month ∈ [4, 6, 9, 11] then 30 else 31

/-- Whether a day exists. -/
def dayExists (year month day : Nat) : Bool :=
  1 ≤ year && day ≤ daysOf year month

/-- The microseconds of a second that decimals denote, of which the first six count. -/
def microseconds : List Char → Nat × List Char
  | '.' :: rest =>
    let digits := rest.takeWhile Char.isDigit
    if digits = [] then (0, '.' :: rest)
    else
      let kept := digits.take 6
      (valueOf 10 (kept ++ List.replicate (6 - kept.length) '0'), rest.dropWhile Char.isDigit)
  | text => (0, text)

/-- A time of day, as hour, minute, second and microsecond. -/
def time? (text : List Char) : Option ((Nat × Nat × Nat × Nat) × List Char) := do
  let (hour, rest) ← twoDigits? 0 23 text
  let (minute, rest) ← twoDigits? 0 59 (← skip? ':' rest)
  let (second, rest) ← twoDigits? 0 59 (← skip? ':' rest)
  let (micro, rest) := microseconds rest
  return ((hour, minute, second, micro), rest)

/-- The offset of a time from the zero meridian in seconds. -/
def offset? : List Char → Option (Int × List Char)
  | 'Z' :: rest | 'z' :: rest => some (0, rest)
  | '+' :: rest => do
    let (hour, rest) ← twoDigits? 0 23 rest
    let (minute, rest) ← twoDigits? 0 59 (← skip? ':' rest)
    return ((3600 * hour + 60 * minute : Nat), rest)
  | '-' :: rest => do
    let (hour, rest) ← twoDigits? 0 23 rest
    let (minute, rest) ← twoDigits? 0 59 (← skip? ':' rest)
    return (-((3600 * hour + 60 * minute : Nat) : Int), rest)
  | _ => none

/-- Numbers with commas between them. -/
def commaSeparated (numbers : List Nat) : String :=
  ", ".intercalate (numbers.map Nat.repr)

/-- The parts of a time as messages show them: seconds and microseconds only where they count. -/
def timeParts : Nat × Nat × Nat × Nat → List Nat
  | (hour, minute, second, micro) =>
    if micro ≠ 0 then [hour, minute, second, micro]
    else if second ≠ 0 then [hour, minute, second]
    else [hour, minute]

/-- An offset as messages show it. -/
def shownOffset (offset : Int) : String :=
  if offset = 0 then "datetime.timezone.utc"
  else if 0 < offset then s!"datetime.timezone(datetime.timedelta(seconds={offset}))"
  else s!"datetime.timezone(datetime.timedelta(days=-1, seconds={86400 + offset}))"

/-- The time of day behind a date, with the mark that divides them. -/
def timeOfDay? : List Char → Option ((Nat × Nat × Nat × Nat) × List Char)
  | c :: rest => if c = 'T' ∨ c = 't' ∨ c = ' ' then time? rest else none
  | [] => none

/-- A date, a time or both. A date that is written correctly but does not exist is no value. -/
def moment? (text : List Char) : Option (Option (Setting × List Char)) :=
  match day? text with
  | some ((year, month, day), rest) =>
    some <|
      if dayExists year month day then
        match timeOfDay? rest with
        | none => some (.moment s!"datetime.date({commaSeparated [year, month, day]})", rest)
        | some (time, afterTime) =>
          let parts := commaSeparated ([year, month, day] ++ timeParts time)
          match offset? afterTime with
          | none => some (.moment s!"datetime.datetime({parts})", afterTime)
          | some (offset, after) =>
            some (.moment s!"datetime.datetime({parts}, tzinfo={shownOffset offset})", after)
      else none
  | none =>
    (time? text).map fun (time, rest) =>
      some (.moment s!"datetime.time({commaSeparated (timeParts time)})", rest)

end SqlLayout.Toml
