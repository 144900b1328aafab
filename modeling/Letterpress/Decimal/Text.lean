import Letterpress.Decimal.Shortest

/-!
Decimal numbers as text: reading them into binary numbers with one correct
rounding, and writing them without an exponent.
-/

namespace Letterpress.Decimal

def isDigit (char : Char) : Bool := '0' ≤ char && char ≤ '9'

def digitValue (char : Char) : Nat := char.toNat - '0'.toNat

def ofDigits (digits : List Char) : Nat :=
  digits.foldl (fun number char => 10 * number + digitValue char) 0

def digitsOf (number : Nat) : List Char := Nat.toDigits 10 number

def fraction (number : Decimal) : Nat × Nat :=
  (number.digits * tenTo number.exponent, tenTo (-number.exponent))

def withSign (negative : Bool) (number : Float) : Float :=
  if negative then -number else number

/-- Rounds to the nearest number of a format through `round`. Sizes that are out of
reach of every format are decided from the count of digits alone, so that a huge
exponent costs nothing. -/
def roundWith (round : Nat → Nat → Float) (number : Decimal) : Float :=
  let magnitude := (digitCount number.digits : Int) + number.exponent
  if number.digits == 0 || magnitude < -400 then withSign number.negative (Float.ofBits 0)
  else if 400 < magnitude then withSign number.negative infinity
  else withSign number.negative (round number.fraction.1 number.fraction.2)

def toDouble (number : Decimal) : Float := roundWith nearestDouble number

def toSingle (number : Decimal) : Float := roundWith nearestSingle number

def readExponent? : List Char → Option Int
  | [] => some 0
  | mark :: rest =>
      if mark == 'e' || mark == 'E' then
        let (negative, digits) := match rest with
          | '-' :: digits => (true, digits)
          | '+' :: digits => (false, digits)
          | digits => (false, digits)
        if digits.isEmpty || !digits.all isDigit then none
        else if negative then some (-(ofDigits digits : Int)) else some (ofDigits digits)
      else none

def readUnsigned? (negative : Bool) (chars : List Char) : Option Decimal :=
  let whole := chars.takeWhile isDigit
  let afterWhole := chars.dropWhile isDigit
  let (places, afterPlaces) := match afterWhole with
    | '.' :: rest => (rest.takeWhile isDigit, rest.dropWhile isDigit)
    | rest => ([], rest)
  if whole.isEmpty && places.isEmpty then none
  else (readExponent? afterPlaces).map fun power =>
    ⟨negative, ofDigits (whole ++ places), power - places.length⟩

inductive Number where
  | finite (decimal : Decimal)
  | infinite (negative : Bool)
  | undefined

/-- Reads a number in general notation: a sign, then a decimal, or in any letter
case `inf`, `infinity` or `nan`. -/
def Number.read? (text : String) : Option Number :=
  let (negative, chars) := match text.toList with
    | '-' :: rest => (true, rest)
    | '+' :: rest => (false, rest)
    | chars => (false, chars)
  let lower := String.ofList (chars.map Char.toLower)
  if lower == "inf" || lower == "infinity" then some (.infinite negative)
  else if lower == "nan" then some .undefined
  else (readUnsigned? negative chars).map .finite

def Number.roundWith (round : Decimal → Float) : Number → Float
  | .finite decimal => round decimal
  | .infinite negative => withSign negative infinity
  | .undefined => 0.0 / 0.0

def positional (number : Decimal) : String :=
  let digits := digitsOf number.digits
  let body :=
    if 0 ≤ number.exponent then digits ++ List.replicate number.exponent.toNat '0'
    else
      let places := (-number.exponent).toNat
      if places < digits.length then
        digits.take (digits.length - places) ++ '.' :: digits.drop (digits.length - places)
      else '0' :: '.' :: (List.replicate (places - digits.length) '0' ++ digits)
  String.ofList (if number.negative then '-' :: body else body)

end Letterpress.Decimal
