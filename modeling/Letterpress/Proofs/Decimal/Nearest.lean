import Letterpress.Decimal.Shortest
import Mathlib.Algebra.Order.Field.Power
import Mathlib.Data.Rat.Cast.Order
import Mathlib.Tactic.FieldSimp
import Mathlib.Tactic.Linarith
import Mathlib.Tactic.Positivity
import Mathlib.Tactic.Ring

/-!
Rounding to doubles. A double attracts the fractions that are nearer to it than to its
neighbours, half way ones included if its mantissa is even. Rounding a fraction that a
double attracts gives the bits of that double, also where the fraction lies below the
power of two that the double is: then the mantissa carries over into the exponent.
-/

namespace Letterpress.Decimal

theorem two_to_pos (exponent : Int) : 0 < twoTo exponent := Nat.pow_pos (by decide)

theorem ten_to_pos (exponent : Int) : 0 < tenTo exponent := Nat.pow_pos (by decide)

theorem two_to_ratio (exponent : Int) :
    (twoTo exponent : ℚ) / twoTo (-exponent) = 2 ^ exponent := by
  rcases Int.le_total 0 exponent with positive | negative
  · obtain ⟨power, rfl⟩ := Int.eq_ofNat_of_zero_le positive
    simp [twoTo]
  · obtain ⟨power, same⟩ := Int.eq_ofNat_of_zero_le (Int.neg_nonneg_of_nonpos negative)
    obtain rfl : exponent = -(power : Int) := by omega
    simp [twoTo]

theorem ten_to_ratio (exponent : Int) :
    (tenTo exponent : ℚ) / tenTo (-exponent) = 10 ^ exponent := by
  rcases Int.le_total 0 exponent with positive | negative
  · obtain ⟨power, rfl⟩ := Int.eq_ofNat_of_zero_le positive
    simp [tenTo]
  · obtain ⟨power, same⟩ := Int.eq_ofNat_of_zero_le (Int.neg_nonneg_of_nonpos negative)
    obtain rfl : exponent = -(power : Int) := by omega
    simp [tenTo]

section RoundHalfEven

variable {numerator denominator multiple : Nat}

/-- A multiple that is within half a step of a fraction is what the fraction rounds to, if
it is even where it is exactly half a step off. -/
theorem round_half_even_unique
    (above : 2 * multiple * denominator ≤ 2 * numerator + denominator)
    (below : 2 * numerator ≤ 2 * multiple * denominator + denominator)
    (odd : multiple % 2 = 1 → 2 * multiple * denominator < 2 * numerator + denominator ∧
      2 * numerator < 2 * multiple * denominator + denominator) (positive : 0 < denominator) :
    roundHalfEven numerator denominator = multiple := by
  have whole := Nat.div_add_mod numerator denominator
  have small := Nat.mod_lt numerator positive
  unfold roundHalfEven
  dsimp only
  generalize numerator / denominator = quotient at whole ⊢
  generalize numerator % denominator = remainder at whole small ⊢
  subst whole
  have least : quotient ≤ multiple := by
    by_contra less
    have steps : (multiple + 1) * denominator ≤ quotient * denominator :=
      Nat.mul_le_mul_right _ (by omega)
    nlinarith
  have greatest : multiple ≤ quotient + 1 := by
    by_contra more
    have steps : (quotient + 2) * denominator ≤ multiple * denominator :=
      Nat.mul_le_mul_right _ (by omega)
    nlinarith
  rcases Nat.eq_or_lt_of_le least with rfl | next
  · have half : 2 * remainder ≤ denominator := by nlinarith
    rcases Nat.eq_or_lt_of_le half with tie | nearer
    · have even : quotient % 2 = 0 := by
        by_contra uneven
        have strict := (odd (by omega)).2
        nlinarith
      simp [tie, even]
    · simp [nearer]
  · obtain rfl : multiple = quotient + 1 := by omega
    have half : denominator ≤ 2 * remainder := by nlinarith
    rcases Nat.eq_or_lt_of_le half with tie | farther
    · have uneven : quotient % 2 = 1 := by
        by_contra even
        have strict := (odd (by omega)).1
        nlinarith
      simp [← tie, uneven]
    · have apart : ¬ 2 * remainder < denominator := by omega
      have noTie : 2 * remainder ≠ denominator := by omega
      simp [apart, noTie]

end RoundHalfEven

section Leading

variable {numerator denominator : Nat}

theorem reaches_iff (power : Int) (positive : 0 < denominator) :
    denominator * twoTo power ≤ numerator * twoTo (-power) ↔
      (2 : ℚ) ^ power ≤ numerator / denominator := by
  rw [← two_to_ratio, div_le_div_iff₀ (by exact_mod_cast two_to_pos _)
    (by exact_mod_cast positive)]
  norm_cast
  rw [Nat.mul_comm]

/-- The power of two that leads in a fraction. -/
def leadingBit (numerator denominator : Nat) : Int :=
  let bound : Int := (numerator.log2 : Int) - denominator.log2
  if denominator * twoTo bound ≤ numerator * twoTo (-bound) then bound else bound - 1

theorem log_bounds {number : Nat} (positive : 0 < number) :
    (2 : ℚ) ^ (number.log2 : Int) ≤ number ∧ (number : ℚ) < 2 ^ ((number.log2 : Int) + 1) := by
  constructor
  · exact_mod_cast Nat.log2_self_le positive.ne'
  · exact_mod_cast Nat.lt_log2_self (n := number)

theorem leading_bit_spec (numerator_positive : 0 < numerator) (positive : 0 < denominator) :
    (2 : ℚ) ^ leadingBit numerator denominator ≤ numerator / denominator ∧
      (numerator : ℚ) / denominator < 2 ^ (leadingBit numerator denominator + 1) := by
  obtain ⟨numerator_least, numerator_most⟩ := log_bounds numerator_positive
  obtain ⟨least, most⟩ := log_bounds positive
  have denominator_positive : (0 : ℚ) < denominator := by exact_mod_cast positive
  have two_zero : (2 : ℚ) ≠ 0 := by norm_num
  unfold leadingBit
  dsimp only
  split
  · next reaches =>
      refine ⟨(reaches_iff _ positive).mp reaches, ?_⟩
      rw [div_lt_iff₀ denominator_positive]
      calc (numerator : ℚ)
          < 2 ^ ((numerator.log2 : Int) + 1) := numerator_most
        _ = 2 ^ ((numerator.log2 : Int) - denominator.log2 + 1) * 2 ^ (denominator.log2 : Int) := by
            rw [← zpow_add₀ two_zero]
            congr 1
            ring
        _ ≤ 2 ^ ((numerator.log2 : Int) - denominator.log2 + 1) * denominator := by gcongr
  · next short =>
      rw [reaches_iff _ positive, not_le] at short
      refine ⟨?_, by simpa using short⟩
      rw [le_div_iff₀ denominator_positive]
      calc (2 : ℚ) ^ ((numerator.log2 : Int) - denominator.log2 - 1) * denominator
          ≤ 2 ^ ((numerator.log2 : Int) - denominator.log2 - 1) *
              2 ^ ((denominator.log2 : Int) + 1) := by gcongr
        _ = 2 ^ (numerator.log2 : Int) := by
            rw [← zpow_add₀ two_zero]
            congr 1
            ring
        _ ≤ numerator := numerator_least

theorem leading_bit_lt {power : Int} (numerator_positive : 0 < numerator)
    (positive : 0 < denominator) (small : (numerator : ℚ) / denominator < 2 ^ power) :
    leadingBit numerator denominator < power :=
  (zpow_lt_zpow_iff_right₀ one_lt_two).mp
    ((leading_bit_spec numerator_positive positive).1.trans_lt small)

theorem leading_bit_unique {power : Int} (numerator_positive : 0 < numerator)
    (positive : 0 < denominator) (large : (2 : ℚ) ^ power ≤ numerator / denominator)
    (small : (numerator : ℚ) / denominator < 2 ^ (power + 1)) :
    leadingBit numerator denominator = power := by
  have most := leading_bit_lt numerator_positive positive small
  have least : power < leadingBit numerator denominator + 1 :=
    (zpow_lt_zpow_iff_right₀ one_lt_two).mp
      (large.trans_lt (leading_bit_spec numerator_positive positive).2)
  omega

end Leading

/-- A fraction rounds to the multiple of a power of two that is within half a step. -/
theorem rounds_to_multiple {numerator denominator multiple : Nat} (exponent : Int)
    (positive : 0 < denominator)
    (above : ((multiple : ℚ) - 1 / 2) * 2 ^ exponent ≤ numerator / denominator)
    (below : (numerator : ℚ) / denominator ≤ (multiple + 1 / 2) * 2 ^ exponent)
    (odd : multiple % 2 = 1 →
      ((multiple : ℚ) - 1 / 2) * 2 ^ exponent < numerator / denominator ∧
        (numerator : ℚ) / denominator < (multiple + 1 / 2) * 2 ^ exponent) :
    roundHalfEven (numerator * twoTo (-exponent)) (denominator * twoTo exponent) = multiple := by
  have up : (0 : ℚ) < twoTo exponent := by exact_mod_cast two_to_pos exponent
  have down : (0 : ℚ) < twoTo (-exponent) := by exact_mod_cast two_to_pos (-exponent)
  have divides : (0 : ℚ) < denominator := by exact_mod_cast positive
  have lower (size : ℚ) : size * 2 ^ exponent ≤ numerator / denominator ↔
      size * (denominator * twoTo exponent) ≤ numerator * twoTo (-exponent) := by
    rw [← two_to_ratio, ← mul_div_assoc, div_le_div_iff₀ down divides]
    ring_nf
  have upper (size : ℚ) : (numerator : ℚ) / denominator ≤ size * 2 ^ exponent ↔
      numerator * twoTo (-exponent) ≤ size * (denominator * twoTo exponent) := by
    rw [← two_to_ratio, ← mul_div_assoc, div_le_div_iff₀ divides down]
    ring_nf
  rw [lower] at above
  rw [upper] at below
  rw [← not_le, ← not_le, upper, lower, not_le, not_le] at odd
  apply round_half_even_unique
  · have doubled : (2 * multiple * (denominator * twoTo exponent) : ℚ) ≤
        2 * (numerator * twoTo (-exponent)) + denominator * twoTo exponent := by linarith
    exact_mod_cast doubled
  · have doubled : (2 * (numerator * twoTo (-exponent)) : ℚ) ≤
        2 * multiple * (denominator * twoTo exponent) + denominator * twoTo exponent := by linarith
    exact_mod_cast doubled
  · intro uneven
    obtain ⟨strictly_above, strictly_below⟩ := odd uneven
    constructor
    · have doubled : (2 * multiple * (denominator * twoTo exponent) : ℚ) <
          2 * (numerator * twoTo (-exponent)) + denominator * twoTo exponent := by linarith
      exact_mod_cast doubled
    · have doubled : (2 * (numerator * twoTo (-exponent)) : ℚ) <
          2 * multiple * (denominator * twoTo exponent) + denominator * twoTo exponent := by
        linarith
      exact_mod_cast doubled
  · exact Nat.mul_pos positive (two_to_pos _)

namespace Dyadic

/-- The size of a positive double: the mantissa is full unless the exponent is the least. -/
structure Canonical (number : Dyadic) : Prop where
  positive : 0 < number.mantissa
  bounded : number.mantissa < 2 ^ 53
  least : -1074 ≤ number.exponent
  most : number.exponent ≤ 971
  full : number.exponent = -1074 ∨ 2 ^ 52 ≤ number.mantissa

structure Attracts (number : Dyadic) (size : ℚ) : Prop where
  above : (roundingInterval number).1 * (2 : ℚ) ^ (number.exponent - 2) ≤ size
  below : size ≤ (roundingInterval number).2 * (2 : ℚ) ^ (number.exponent - 2)
  odd : number.mantissa % 2 = 1 →
    (roundingInterval number).1 * (2 : ℚ) ^ (number.exponent - 2) < size ∧
      size < (roundingInterval number).2 * (2 : ℚ) ^ (number.exponent - 2)

/-- Only a full power of two above the least exponent has a nearer neighbour below. -/
def isNarrow (number : Dyadic) : Prop :=
  number.mantissa = 2 ^ 52 ∧ number.exponent ≠ -1074

theorem quarter_unit (exponent : Int) : (2 : ℚ) ^ (exponent - 2) = 2 ^ exponent / 4 := by
  rw [zpow_sub₀ two_ne_zero]
  norm_num

theorem half_unit (exponent : Int) : (2 : ℚ) ^ (exponent - 1) = 2 ^ exponent / 2 := by
  rw [zpow_sub₀ two_ne_zero, zpow_one]

theorem interval_top (number : Dyadic) :
    ((roundingInterval number).2 : ℚ) * 2 ^ (number.exponent - 2) =
      (number.mantissa + 1 / 2) * 2 ^ number.exponent := by
  simp only [roundingInterval, quarter_unit]
  push_cast
  ring

theorem interval_bottom {number : Dyadic} (canonical : number.Canonical)
    (wide : ¬ number.isNarrow) :
    ((roundingInterval number).1 : ℚ) * 2 ^ (number.exponent - 2) =
      (number.mantissa - 1 / 2) * 2 ^ number.exponent := by
  have flat : (number.mantissa == twoTo 52 && number.exponent != -1074) = false := by
    simpa [isNarrow, twoTo] using wide
  have room : 2 ≤ 4 * number.mantissa := by
    have positive := canonical.positive
    omega
  simp only [roundingInterval, flat, quarter_unit]
  push_cast [room]
  ring

theorem narrow_bottom {number : Dyadic} (narrow : number.isNarrow) :
    ((roundingInterval number).1 : ℚ) * 2 ^ (number.exponent - 2) =
      ((2 ^ 53 : ℕ) - 1 / 2) * 2 ^ (number.exponent - 1) := by
  obtain ⟨power, above⟩ := narrow
  have steep : (number.mantissa == twoTo 52 && number.exponent != -1074) = true := by
    simpa [twoTo, above] using power
  simp only [roundingInterval, steep, if_true, quarter_unit, half_unit]
  rw [power]
  norm_num
  ring

section Rounding

variable {number : Dyadic} {numerator denominator : Nat}

theorem nearest_eq {exponent : Int} {multiple : Nat} (positive : 0 < denominator)
    (placed : max (-1074) (leadingBit numerator denominator - 52) = exponent)
    (above : ((multiple : ℚ) - 1 / 2) * 2 ^ exponent ≤ numerator / denominator)
    (below : (numerator : ℚ) / denominator ≤ (multiple + 1 / 2) * 2 ^ exponent)
    (odd : multiple % 2 = 1 →
      ((multiple : ℚ) - 1 / 2) * 2 ^ exponent < numerator / denominator ∧
        (numerator : ℚ) / denominator < (multiple + 1 / 2) * 2 ^ exponent) :
    nearest doublePrecision numerator denominator = ⟨multiple, exponent⟩ := by
  have rounded := rounds_to_multiple exponent positive above below odd
  subst placed
  simpa [nearest, leadingBit, doublePrecision] using rounded

/-- The common case: the neighbours of the number are equally far from it, or the fraction
is not below its power of two. -/
theorem nearest_in_place (canonical : number.Canonical) (positive : 0 < denominator)
    (attracts : number.Attracts (numerator / denominator))
    (placed : max (-1074) (leadingBit numerator denominator - 52) = number.exponent)
    (reached : number.isNarrow → (2 : ℚ) ^ (number.exponent + 52) ≤ numerator / denominator) :
    nearest doublePrecision numerator denominator = number := by
  obtain ⟨above, below, odd⟩ := attracts
  rw [interval_top] at below odd
  by_cases narrow : number.isNarrow
  · have large := reached narrow
    obtain ⟨power, apart⟩ := narrow
    have unit : (0 : ℚ) < 2 ^ number.exponent := by positivity
    rw [zpow_add₀ two_ne_zero] at large
    apply nearest_eq positive placed _ below
    · intro uneven
      rw [power] at uneven
      cases uneven
    · rw [power]
      push_cast
      norm_num at large ⊢
      linarith
  · rw [interval_bottom canonical narrow] at above odd
    exact nearest_eq positive placed above below odd

/-- What a double attracts below its power of two is nearer to it than the binade below. -/
theorem narrow_of_below (canonical : number.Canonical)
    (attracts : number.Attracts (numerator / denominator)) (above : number.exponent ≠ -1074)
    (short : (numerator : ℚ) / denominator < 2 ^ (number.exponent + 52)) : number.isNarrow := by
  by_contra wide
  have full := canonical.full.resolve_left above
  have bottom := attracts.above
  rw [interval_bottom canonical wide] at bottom
  have unit : (0 : ℚ) < 2 ^ number.exponent := by positivity
  have under :
      ((number.mantissa : ℚ) - 1 / 2) * 2 ^ number.exponent < 2 ^ 52 * 2 ^ number.exponent := by
    rw [zpow_add₀ two_ne_zero, mul_comm] at short
    exact bottom.trans_lt (by exact_mod_cast short)
  have less := lt_of_mul_lt_mul_right under unit.le
  have most : (number.mantissa : ℚ) < (2 ^ 52 + 1 : ℕ) := by
    push_cast
    linarith
  have small : number.mantissa < 2 ^ 52 + 1 := by exact_mod_cast most
  exact wide ⟨by omega, above⟩

theorem nearest_of_attracted (canonical : number.Canonical) (numerator_positive : 0 < numerator)
    (positive : 0 < denominator) (attracts : number.Attracts (numerator / denominator)) :
    (nearest doublePrecision numerator denominator).doubleBits = number.doubleBits := by
  have unit : (0 : ℚ) < 2 ^ number.exponent := by positivity
  have least := canonical.least
  have top : (numerator : ℚ) / denominator < 2 ^ (number.exponent + 52 + 1) := by
    have bounded : (number.mantissa : ℚ) + 1 ≤ 2 ^ 53 := by exact_mod_cast canonical.bounded
    have below := attracts.below
    rw [interval_top] at below
    rw [show number.exponent + 52 + 1 = number.exponent + 53 by ring, zpow_add₀ two_ne_zero]
    norm_num at bounded ⊢
    nlinarith
  by_cases reached : (2 : ℚ) ^ (number.exponent + 52) ≤ numerator / denominator
  · have leading := leading_bit_unique numerator_positive positive reached top
    rw [nearest_in_place canonical positive attracts (by omega) fun _ => reached]
  · rw [not_le] at reached
    have short := leading_bit_lt numerator_positive positive reached
    by_cases lowest : number.exponent = -1074
    · have wide : ¬ number.isNarrow := fun narrow => narrow.2 lowest
      rw [nearest_in_place canonical positive attracts (by omega) fun narrow => absurd narrow wide]
    · have full := canonical.full.resolve_left lowest
      have narrow := narrow_of_below canonical attracts lowest reached
      have above := attracts.above
      rw [narrow_bottom narrow] at above
      have half : (2 : ℚ) ^ (number.exponent + 52) = (2 ^ 53 : ℕ) * 2 ^ (number.exponent - 1) := by
        rw [zpow_add₀ two_ne_zero, half_unit]
        norm_num
        ring
      have half_positive : (0 : ℚ) < 2 ^ (number.exponent - 1) := by positivity
      have leading : leadingBit numerator denominator = number.exponent + 51 := by
        apply leading_bit_unique numerator_positive positive
        · rw [show number.exponent + 51 = number.exponent - 1 + 52 by ring,
            zpow_add₀ two_ne_zero]
          norm_num at above ⊢
          nlinarith
        · rw [add_assoc]
          exact reached
      have carried := nearest_eq positive (by omega) above (by rw [half] at reached; nlinarith)
        fun uneven => absurd uneven (by decide)
      obtain ⟨power, -⟩ := narrow
      have next : (number.exponent + 1074).toNat = (number.exponent - 1 + 1074).toNat + 1 := by
        omega
      rw [carried, doubleBits, doubleBits, power, next, Nat.add_mul, Nat.add_assoc]
      rfl

end Rounding

end Dyadic

end Letterpress.Decimal
