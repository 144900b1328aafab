/-!
Binary floating point numbers as exact natural numbers: the value of a finite
double, and the binary number nearest to a fraction. All arithmetic is exact, so
rounding happens in one place, to nearest with ties to the even mantissa.
-/

namespace Letterpress.Decimal

/-- The power of two, or one for negative exponents: as a fraction, a power of two is
`twoTo exponent / twoTo (-exponent)`. -/
def twoTo (exponent : Int) : Nat := Nat.pow 2 exponent.toNat

/-- The power of ten, or one for negative exponents. -/
def tenTo (exponent : Int) : Nat := Nat.pow 10 exponent.toNat

/-- The value `mantissa * 2 ^ exponent`. -/
structure Dyadic where
  mantissa : Nat
  exponent : Int
  deriving DecidableEq, Repr

/-- A binary format: the bits of a full mantissa, the exponent of the smallest
positive number, and the least power of two out of reach. -/
structure BinaryFormat where
  precision : Nat
  leastExponent : Int
  overflow : Int

def doublePrecision : BinaryFormat := ⟨53, -1074, 1024⟩

def singlePrecision : BinaryFormat := ⟨24, -149, 128⟩

def Dyadic.ofFloat? (number : Float) : Option (Bool × Dyadic) :=
  let bits := number.toBits.toNat
  let negative := bits / twoTo 63 == 1
  let biased : Nat := bits / twoTo 52 % 2048
  let fraction := bits % twoTo 52
  if biased == 2047 then none
  else if biased == 0 then some (negative, ⟨fraction, -1074⟩)
  else some (negative, ⟨twoTo 52 + fraction, (biased : Int) - 1075⟩)

def roundHalfEven (numerator denominator : Nat) : Nat :=
  let quotient := numerator / denominator
  let remainder := numerator % denominator
  if 2 * remainder < denominator then quotient
  else if 2 * remainder == denominator && quotient % 2 == 0 then quotient
  else quotient + 1

/-- The number of the format nearest to a positive fraction, as if exponents had
no upper end. A mantissa may come out as the full power of two. -/
def Dyadic.nearest (format : BinaryFormat) (numerator denominator : Nat) : Dyadic :=
  let bound : Int := (numerator.log2 : Int) - denominator.log2
  let reaches (power : Int) : Bool :=
    denominator * twoTo power ≤ numerator * twoTo (-power)
  let leading := if reaches bound then bound else bound - 1
  let exponent := max format.leastExponent (leading - (format.precision - 1))
  ⟨roundHalfEven (numerator * twoTo (-exponent)) (denominator * twoTo exponent), exponent⟩

/-- The bits of a positive infinity, which are above those of every finite double. -/
def infinityBits : Nat := 2047 * twoTo 52

def infinity : Float := Float.ofBits (.ofNat infinityBits)

/-- The bits of a double, for a mantissa of at most 53 bits that is full unless
the exponent is the least one. A mantissa of one bit too many carries over into
the exponent, and what lies beyond the largest double becomes infinity. -/
def Dyadic.doubleBits (number : Dyadic) : Nat :=
  min ((number.exponent + 1074).toNat * twoTo 52 + number.mantissa) infinityBits

def nearestDouble (numerator denominator : Nat) : Float :=
  if numerator == 0 then Float.ofBits 0
  else Float.ofBits (.ofNat (Dyadic.nearest doublePrecision numerator denominator).doubleBits)

def nearestSingle (numerator denominator : Nat) : Float :=
  if numerator == 0 then Float.ofBits 0
  else
    let number := Dyadic.nearest singlePrecision numerator denominator
    if twoTo singlePrecision.overflow ≤ number.mantissa * twoTo number.exponent then infinity
    else nearestDouble (number.mantissa * twoTo number.exponent) (twoTo (-number.exponent))

end Letterpress.Decimal
