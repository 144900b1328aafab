import Letterpress.Decimal.Binary

/-!
Decimal numbers, and the decimal that stands for a double: of all decimals that
round to it, one with the fewest digits, and of those the nearest. A tie between
two of them is left to the notation that asks.
-/

namespace Letterpress

/-- The value `digits * 10 ^ exponent`, negated if `negative`. Zero keeps its sign. -/
structure Decimal where
  negative : Bool
  digits : Nat
  exponent : Int
  deriving DecidableEq, Repr

namespace Decimal

inductive Tie where
  | up
  | even
  deriving DecidableEq, Repr

/-- Counts the decimal digits; zero has one. -/
def digitCount (number : Nat) : Nat := (Nat.toDigits 10 number).length

/-- The power of ten of the leading digit of a fraction between `10 ^ -400` and any size. -/
def leadingPower (numerator denominator : Nat) : Int :=
  (digitCount (numerator * tenTo 400 / denominator) : Int) - 401

def stripZeros : Nat → Nat → Int → Nat × Int
  | 0, digits, exponent => (digits, exponent)
  | steps + 1, digits, exponent =>
      if digits != 0 && digits % 10 == 0 then stripZeros steps (digits / 10) (exponent + 1)
      else (digits, exponent)

/-- Four times the mantissa with the two ends of the reals that round to it, in the
same unit. Below a full power of two the gap is half as wide. -/
def roundingInterval (number : Dyadic) : Nat × Nat :=
  let narrow := number.mantissa == twoTo 52 && number.exponent != -1074
  (4 * number.mantissa - (if narrow then 1 else 2), 4 * number.mantissa + 2)

def onGrid? (tie : Tie) (number : Dyadic) (power : Int) : Option Nat :=
  let unit : Int := number.exponent - 2
  -- quarters of the last binary place times `scale` are grid steps times `step`
  let scale := twoTo unit * tenTo (-power)
  let step := twoTo (-unit) * tenTo power
  let (low, high) := roundingInterval number
  let value := 4 * number.mantissa * scale
  let inside (multiple : Nat) : Bool :=
    if number.mantissa % 2 == 0 then low * scale ≤ multiple * step && multiple * step ≤ high * scale
    else low * scale < multiple * step && multiple * step < high * scale
  let below := value / step
  let above := below + 1
  match inside below, inside above with
  | true, true =>
      let doubled := 2 * value
      let middle := (below + above) * step
      if doubled < middle then some below
      else if middle < doubled then some above
      else match tie with
        | .up => some above
        | .even => some (if below % 2 == 0 then below else above)
  | true, false => some below
  | false, true => some above
  | false, false => none

/-- Eighteen grids are tried, from the leading digit down; seventeen digits always
suffice. -/
def shortestPositive (tie : Tie) (number : Dyadic) : Nat × Int :=
  let leading :=
    leadingPower (number.mantissa * twoTo number.exponent) (twoTo (-number.exponent))
  let found := (List.range 18).findSome? fun (place : Nat) =>
    let power := leading - place
    (onGrid? tie number power).map fun digits => (digits, power)
  match found with
  | some (digits, power) => stripZeros 20 digits power
  | none =>
      (number.mantissa * twoTo number.exponent * Nat.pow 5 (-number.exponent).toNat,
        -((-number.exponent).toNat : Int))

def ofFloat? (tie : Tie) (number : Float) : Option Decimal :=
  match Dyadic.ofFloat? number with
  | none => none
  | some (negative, magnitude) =>
      if magnitude.mantissa == 0 then some ⟨negative, 0, 0⟩
      else
        let (digits, exponent) := shortestPositive tie magnitude
        some ⟨negative, digits, exponent⟩

end Letterpress.Decimal
