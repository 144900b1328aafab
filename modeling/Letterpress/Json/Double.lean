import Letterpress.Json.Basic

/-!
Numerals as doubles, the quick way. As many digits as fit a word are taken for a whole number;
the double of that number is multiplied or divided by a power of ten. The double may be rounded
at each of these steps, so that it need not be the one next to the numeral.
-/

namespace Letterpress.Numeral

/-- Puts digits behind a number for as long as it fits a word, and counts those that are left. -/
def takeDigits (number : Nat) : List Char → Nat × Nat
  | [] => (number, 0)
  | char :: rest =>
      let longer := 10 * number + Decimal.digitValue char
      if UInt64.size ≤ longer then (number, rest.length + 1) else takeDigits longer rest

/-- No larger power of ten is a finite double. -/
def mostTens : Nat := 308

def powerOfTen (tens : Nat) : Float := Decimal.toDouble ⟨false, 1, tens⟩

/-- Small numbers are divided in several steps, of which the last one that counts gives zero. -/
def shrink (number : Float) (tens : Nat) : Float :=
  if tens ≤ mostTens then number / powerOfTen tens
  else if number == 0 then number
  else shrink (number / powerOfTen mostTens) (tens - mostTens)
termination_by tens
decreasing_by
  unfold mostTens
  omega

def grow? (number : Float) (tens : Nat) : Option Float :=
  if tens ≤ mostTens then
    let grown := number * powerOfTen tens
    if grown.isInf then none else some grown
  else if number == 0 then some number
  else none

/-- The double of `significand * 10 ^ exponent`, unless it is out of range. -/
def scale? (significand : Nat) (exponent : Int) : Option Float :=
  let number := (UInt64.ofNat significand).toFloat
  if 0 ≤ exponent then grow? number exponent.toNat else some (shrink number exponent.natAbs)

def exponent (numeral : Numeral) : Int :=
  match numeral.power with
  | none => 0
  | some (true, digits) => -(Decimal.ofDigits digits : Int)
  | some (false, digits) => Decimal.ofDigits digits

/-- Whole digits that are left count as zeros, places that are left do not count. -/
def toDouble? (numeral : Numeral) : Option Float :=
  let (whole, zeros) := takeDigits 0 numeral.whole
  let (significand, left) := takeDigits whole numeral.places
  let places := numeral.places.length - left
  (scale? significand (numeral.exponent + zeros - places)).map
    (Decimal.withSign numeral.negative)

end Letterpress.Numeral
