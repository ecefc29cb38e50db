/-!
# Decimal text of binary floating-point numbers

A decimal literal stands for the nearest number of the form `mantissa * 2 ^ exponent` with a
mantissa of 53 bits. Such a number is shown with the fewest digits that read back as the same
number, and of these with the ones nearest to it. Everything is exact arithmetic on naturals.
-/

namespace SqlLayout.Decimal

/-- A quotient rounded to the nearest natural, a half to the even neighbour. -/
def roundDiv (num den : Nat) : Nat :=
  let quotient := num / den
  let rest := num % den
  if 2 * rest < den then quotient
  else if den < 2 * rest then quotient + 1
  else if quotient % 2 = 0 then quotient else quotient + 1

/-- A positive ratio `num / den` times a power of the base, as numerator and denominator. -/
def scaled (base num den : Nat) (power : Int) : Nat × Nat :=
  if 0 ≤ power then (num * base.pow power.toNat, den) else (num, den * base.pow (-power).toNat)

/-- A floating-point number that is not negative. -/
structure Binary where
  /-- The significant bits. -/
  mantissa : Nat
  /-- The power of two they are multiplied with. -/
  exponent : Int
deriving DecidableEq

namespace Binary

/-- The least exponent. -/
def minExponent : Int := -1074

/-- The number of mantissa bits. -/
def bits : Nat := 53

/-- The greatest power of two that is not above a positive ratio. -/
def floorLog (num den : Nat) : Int :=
  let guess : Int := (num.log2 : Int) - den.log2
  let (shifted, bound) := scaled 2 num den (-guess)
  if bound ≤ shifted then guess else guess - 1

/-- The number nearest to a positive ratio, with its mantissa filled up where possible. -/
def nearest (num den : Nat) : Binary :=
  let exponent := max minExponent (floorLog num den - (bits - 1 : Nat))
  let (shifted, bound) := scaled 2 num den (-exponent)
  let mantissa := roundDiv shifted bound
  if mantissa = Nat.pow 2 bits then ⟨mantissa / 2, exponent + 1⟩ else ⟨mantissa, exponent⟩

/-- Whether a number is beyond the greatest finite one. -/
def isInfinite (number : Binary) : Bool :=
  971 < number.exponent

/-- The ratio that a number is. -/
def ratio (number : Binary) : Nat × Nat :=
  scaled 2 number.mantissa 1 number.exponent

end Binary

/-- The number nearest to a decimal with the given digits and power of ten. -/
def binaryOf (digits : Nat) (power : Int) : Binary :=
  let (num, den) := scaled 10 digits 1 power
  Binary.nearest num den

/-- The number of digits before the decimal point of a positive ratio; for a ratio below one, minus
the number of zeros behind the point. -/
def pointPlace (num den : Nat) : Int :=
  if den ≤ num then (Nat.toDigits 10 (num / den)).length
  else 1 - ((Nat.toDigits 10 (den / num)).length : Int) +
    (if num * Nat.pow 10 ((Nat.toDigits 10 (den / num)).length - 1) < den then 0 else 1)

/-- A decimal with the given number of digits that reads back as a number, if there is one: the
nearer neighbour on the grid of such decimals, of two equally near ones the even one, or else the
other one. -/
def withDigits? (number : Binary) (count : Nat) : Option (Nat × Int) :=
  let (num, den) := number.ratio
  let power := pointPlace num den - count
  let (shifted, bound) := scaled 10 num den (-power)
  let below := shifted / bound
  let ordered :=
    if roundDiv shifted bound = below then [below, below + 1] else [below + 1, below]
  (ordered.find? fun digits => 0 < digits && binaryOf digits power == number).map (·, power)

/-- The fewest digits that read back as a number, with their power of ten. -/
def shortest (number : Binary) : Nat × Int :=
  ((List.range 17).findSome? fun count => withDigits? number (count + 1)).getD (0, 0)

/-- Digits without zeros at their end. -/
def trimZeros (digits : List Char) : List Char :=
  (digits.reverse.dropWhile (· == '0')).reverse

/-- The text of digits with the decimal point at a place: positional from four zeros behind the
point up to sixteen digits before it, and with an exponent of at least two digits beyond. -/
def pointed (digits : List Char) (place : Int) : List Char :=
  let zeros (count : Int) := List.replicate count.toNat '0'
  if -4 < place ∧ place ≤ 16 then
    if place ≤ 0 then "0.".toList ++ zeros (-place) ++ digits
    else
      let before := digits.take place.toNat ++ zeros (place - digits.length)
      let behind := digits.drop place.toNat
      before ++ '.' :: (if behind = [] then ['0'] else behind)
  else
    let behind := digits.drop 1
    let exponent := place - 1
    let size := Nat.toDigits 10 exponent.natAbs
    digits.take 1 ++ (if behind = [] then [] else '.' :: behind) ++
      'e' :: (if exponent < 0 then '-' else '+') ::
      (if size.length < 2 then '0' :: size else size)

/-- The shortest text of the number nearest to a decimal that is not negative. Powers of ten far
beyond the range of floating-point numbers are settled without computing them. -/
def shownDecimal (digits : Nat) (power : Int) : String :=
  let size : Int := (Nat.toDigits 10 digits).length
  if digits = 0 ∨ size + power < -330 then "0.0"
  else if 330 < size + power then "inf"
  else
    let number := binaryOf digits power
    if number.mantissa = 0 then "0.0"
    else if number.isInfinite then "inf"
    else
      let (found, grid) := shortest number
      let shown := Nat.toDigits 10 found
      String.ofList (pointed (trimZeros shown) (shown.length + grid))

end SqlLayout.Decimal
