import Letterpress.Decimal.Text
import Letterpress.Proofs.Decimal.Nearest

/-!
The decimal that stands for a double is one that the double attracts, so it is read as that
double. Whether it is the shortest does not matter here: the grids that are tried give
nothing that the double does not attract, and the last resort is the double itself.
-/

namespace Letterpress.Decimal

def size (decimal : Decimal) : ℚ := decimal.digits * 10 ^ decimal.exponent

namespace Dyadic

variable {number : Dyadic}

theorem grid_le_iff (least multiple : Nat) (unit power : Int) :
    least * (twoTo unit * tenTo (-power)) ≤ multiple * (twoTo (-unit) * tenTo power) ↔
      (least : ℚ) * 2 ^ unit ≤ multiple * 10 ^ power := by
  rw [← two_to_ratio, ← ten_to_ratio, ← mul_div_assoc, ← mul_div_assoc,
    div_le_div_iff₀ (by exact_mod_cast two_to_pos _) (by exact_mod_cast ten_to_pos _)]
  norm_cast
  ring_nf

theorem le_grid_iff (multiple greatest : Nat) (unit power : Int) :
    multiple * (twoTo (-unit) * tenTo power) ≤ greatest * (twoTo unit * tenTo (-power)) ↔
      (multiple : ℚ) * 10 ^ power ≤ greatest * 2 ^ unit := by
  rw [← two_to_ratio, ← ten_to_ratio, ← mul_div_assoc, ← mul_div_assoc,
    div_le_div_iff₀ (by exact_mod_cast ten_to_pos _) (by exact_mod_cast two_to_pos _)]
  norm_cast
  ring_nf

theorem on_grid_attracted {tie : Tie} {power : Int} {multiple : Nat}
    (found : onGrid? tie number power = some multiple) :
    number.Attracts (multiple * 10 ^ power) := by
  rcases interval : roundingInterval number with ⟨low, high⟩
  have inside (candidate : Nat)
      (between : (if number.mantissa % 2 == 0 then
          decide (low * (twoTo (number.exponent - 2) * tenTo (-power)) ≤
            candidate * (twoTo (-(number.exponent - 2)) * tenTo power)) &&
          decide (candidate * (twoTo (-(number.exponent - 2)) * tenTo power) ≤
            high * (twoTo (number.exponent - 2) * tenTo (-power)))
        else
          decide (low * (twoTo (number.exponent - 2) * tenTo (-power)) <
            candidate * (twoTo (-(number.exponent - 2)) * tenTo power)) &&
          decide (candidate * (twoTo (-(number.exponent - 2)) * tenTo power) <
            high * (twoTo (number.exponent - 2) * tenTo (-power)))) = true) :
      number.Attracts (candidate * 10 ^ power) := by
    split at between
    · next even =>
        simp only [Bool.and_eq_true, decide_eq_true_eq, grid_le_iff, le_grid_iff] at between
        rw [beq_iff_eq] at even
        exact ⟨interval ▸ between.1, interval ▸ between.2, fun odd => absurd odd (by omega)⟩
    · simp only [Bool.and_eq_true, decide_eq_true_eq, ← not_le, grid_le_iff, le_grid_iff] at between
      rw [not_le, not_le] at between
      exact ⟨interval ▸ between.1.le, interval ▸ between.2.le, fun _ => interval ▸ between⟩
  simp only [onGrid?, interval] at found
  split at found
  · next here there =>
      split at found
      · cases found
        exact inside _ here
      · split at found
        · cases found
          exact inside _ there
        · cases tie with
          | up =>
              cases found
              exact inside _ there
          | even =>
              cases found
              split
              · exact inside _ here
              · exact inside _ there
  · next here _ =>
      cases found
      exact inside _ here
  · next _ here =>
      cases found
      exact inside _ here
  · cases found

theorem strip_zeros_size (steps digits : Nat) (exponent : Int) :
    ((stripZeros steps digits exponent).1 : ℚ) * 10 ^ (stripZeros steps digits exponent).2 =
      digits * 10 ^ exponent := by
  induction steps generalizing digits exponent with
  | zero => rfl
  | succ steps same =>
      rw [stripZeros]
      split
      · next trailing =>
          simp only [Bool.and_eq_true, beq_iff_eq] at trailing
          obtain ⟨front, rfl⟩ := Nat.dvd_of_mod_eq_zero trailing.2
          rw [same, Nat.mul_div_cancel_left _ (by decide), zpow_add₀ (by norm_num), zpow_one]
          push_cast
          ring
      · rfl

theorem attracts_itself (canonical : number.Canonical) :
    number.Attracts (number.mantissa * 2 ^ number.exponent) := by
  have unit : (0 : ℚ) < 2 ^ number.exponent := by positivity
  have below : number.mantissa * 2 ^ number.exponent <
      ((roundingInterval number).2 : ℚ) * 2 ^ (number.exponent - 2) := by
    rw [interval_top]
    nlinarith
  have above : ((roundingInterval number).1 : ℚ) * 2 ^ (number.exponent - 2) <
      number.mantissa * 2 ^ number.exponent := by
    by_cases narrow : number.isNarrow
    · rw [narrow_bottom narrow, narrow.1, half_unit]
      norm_num
      nlinarith
    · rw [interval_bottom canonical narrow]
      nlinarith
  exact ⟨above.le, below.le, fun _ => ⟨above, below⟩⟩

theorem shortest_attracted (canonical : number.Canonical) (tie : Tie) :
    number.Attracts ((shortestPositive tie number).1 * 10 ^ (shortestPositive tie number).2) := by
  unfold shortestPositive
  dsimp only
  split
  · next digits power found =>
      rw [strip_zeros_size]
      obtain ⟨place, -, tried⟩ := List.exists_of_findSome?_eq_some found
      obtain ⟨multiple, here, same⟩ := Option.map_eq_some_iff.mp tried
      cases same
      exact on_grid_attracted here
  · have places : (number.mantissa * twoTo number.exponent *
          Nat.pow 5 (-number.exponent).toNat : ℕ) *
        (10 : ℚ) ^ (-((-number.exponent).toNat : Int)) = number.mantissa * 2 ^ number.exponent := by
      have scale : (10 : ℚ) ^ (-number.exponent).toNat =
          twoTo (-number.exponent) * Nat.pow 5 (-number.exponent).toNat := by
        simp only [twoTo, Nat.pow_eq]
        push_cast
        rw [← mul_pow]
        norm_num
      have five : (0 : ℚ) < Nat.pow 5 (-number.exponent).toNat := by
        exact_mod_cast Nat.pow_pos (by decide)
      have two : (0 : ℚ) < twoTo (-number.exponent) := by exact_mod_cast two_to_pos _
      rw [zpow_neg, zpow_natCast, scale, ← two_to_ratio]
      push_cast
      field_simp
    rw [places]
    exact attracts_itself canonical

section Range

variable {size : ℚ}

theorem attracted_least (canonical : number.Canonical) (attracts : number.Attracts size) :
    (2 : ℚ) ^ (-1075 : Int) ≤ size := by
  refine le_trans ?_ attracts.above
  have room : 2 ≤ (roundingInterval number).1 := by
    have positive := canonical.positive
    simp only [roundingInterval]
    split <;> omega
  calc (2 : ℚ) ^ (-1075 : Int) = 2 * 2 ^ ((-1075 : Int) - 1) := by
        rw [half_unit]
        ring
    _ ≤ (roundingInterval number).1 * 2 ^ (number.exponent - 2) := by
      have least := canonical.least
      have units : (2 : ℚ) ^ ((-1075 : Int) - 1) ≤ 2 ^ (number.exponent - 2) :=
        zpow_le_zpow_right₀ one_le_two (by omega)
      exact mul_le_mul (by exact_mod_cast room) units (by positivity) (by positivity)

theorem attracted_most (canonical : number.Canonical) (attracts : number.Attracts size) :
    size ≤ 2 ^ (1025 : Int) := by
  refine le_trans attracts.below ?_
  have room : (roundingInterval number).2 ≤ 2 ^ 56 := by
    have bounded := canonical.bounded
    simp only [roundingInterval]
    omega
  calc ((roundingInterval number).2 : ℚ) * 2 ^ (number.exponent - 2)
      ≤ (2 ^ 56 : ℕ) * 2 ^ (969 : Int) := by
        have most := canonical.most
        have units : (2 : ℚ) ^ (number.exponent - 2) ≤ 2 ^ (969 : Int) :=
          zpow_le_zpow_right₀ one_le_two (by omega)
        exact mul_le_mul (by exact_mod_cast room) units (by positivity) (by positivity)
    _ = 2 ^ (1025 : Int) := by
        rw [show (1025 : Int) = (56 : ℕ) + 969 by norm_num, zpow_add₀ two_ne_zero, zpow_natCast,
          Nat.cast_pow, Nat.cast_ofNat]

end Range

end Dyadic

theorem digit_count_bounds {digits : Nat} (positive : 0 < digits) :
    10 ^ (digitCount digits - 1) ≤ digits ∧ digits < 10 ^ digitCount digits := by
  have some_digit : 0 < digitCount digits := Nat.length_toDigits_pos
  constructor
  · by_cases single : digitCount digits = 1
    · rw [single]
      exact positive
    · by_contra less
      have fewer : digitCount digits ≤ digitCount digits - 1 :=
        (Nat.length_toDigits_le_iff (by decide) (by omega)).mpr (by omega)
      omega
  · exact (Nat.length_toDigits_le_iff (by decide) some_digit).mp (Nat.le_refl _)

theorem size_bounds {decimal : Decimal} (positive : 0 < decimal.digits) :
    (10 : ℚ) ^ ((digitCount decimal.digits : Int) + decimal.exponent - 1) ≤ decimal.size ∧
      decimal.size < 10 ^ ((digitCount decimal.digits : Int) + decimal.exponent) := by
  obtain ⟨least, most⟩ := digit_count_bounds positive
  have some_digit : 0 < digitCount decimal.digits := Nat.length_toDigits_pos
  have ten : (10 : ℚ) ≠ 0 := by norm_num
  have unit : (0 : ℚ) < 10 ^ decimal.exponent := by positivity
  constructor
  · rw [show (digitCount decimal.digits : Int) + decimal.exponent - 1 =
      ((digitCount decimal.digits - 1 : ℕ) : Int) + decimal.exponent by omega, zpow_add₀ ten,
      zpow_natCast]
    exact mul_le_mul_of_nonneg_right (by exact_mod_cast least) unit.le
  · rw [zpow_add₀ ten, zpow_natCast]
    exact mul_lt_mul_of_pos_right (by exact_mod_cast most) unit

theorem two_below_ten : (2 : ℚ) ^ 1075 ≤ 10 ^ 400 :=
  calc (2 : ℚ) ^ 1075 ≤ 2 ^ (3 * 400) := pow_le_pow_right₀ one_le_two (by norm_num)
    _ = (2 ^ 3) ^ 400 := pow_mul 2 3 400
    _ ≤ 10 ^ 400 := pow_le_pow_left₀ (by norm_num) (by norm_num) 400

/-- A decimal that a double attracts is read as the bits of that double. -/
theorem to_double_attracted {number : Dyadic} {decimal : Decimal} (canonical : number.Canonical)
    (attracts : number.Attracts decimal.size) :
    decimal.toDouble =
      withSign decimal.negative (Float.ofBits (.ofNat number.doubleBits)) := by
  have least := Dyadic.attracted_least canonical attracts
  have most := Dyadic.attracted_most canonical attracts
  have positive : 0 < decimal.digits := by
    apply Nat.pos_of_ne_zero
    intro zero
    rw [size, zero, Nat.cast_zero, zero_mul] at least
    exact absurd least (not_le.mpr (by positivity))
  obtain ⟨tens, above_tens⟩ := size_bounds positive
  have near : ¬ (digitCount decimal.digits : Int) + decimal.exponent < -400 := by
    intro small
    have tiny : (2 : ℚ) ^ (-1075 : Int) < 10 ^ (-400 : Int) :=
      least.trans_lt (above_tens.trans_le (zpow_le_zpow_right₀ (by norm_num) small.le))
    rw [zpow_neg, zpow_neg, inv_lt_inv₀ (by positivity) (by positivity)] at tiny
    exact absurd two_below_ten (not_le.mpr (by exact_mod_cast tiny))
  have reachable : ¬ 400 < (digitCount decimal.digits : Int) + decimal.exponent := by
    intro large
    have huge : (10 : ℚ) ^ (400 : Int) ≤ 2 ^ (1025 : Int) :=
      (zpow_le_zpow_right₀ (by norm_num) (by omega)).trans (tens.trans most)
    have less : (2 : ℚ) ^ (1025 : Int) < 2 ^ (1075 : Int) :=
      zpow_lt_zpow_right₀ one_lt_two (by norm_num)
    exact absurd two_below_ten (not_le.mpr (by exact_mod_cast huge.trans_lt less))
  have fraction : (decimal.fraction.1 : ℚ) / decimal.fraction.2 = decimal.size := by
    rw [size, ← ten_to_ratio, Decimal.fraction]
    push_cast
    ring
  have numerator : 0 < decimal.fraction.1 := Nat.mul_pos positive (ten_to_pos _)
  have denominator : 0 < decimal.fraction.2 := ten_to_pos _
  have rounded := Dyadic.nearest_of_attracted canonical numerator denominator
    (fraction.symm ▸ attracts)
  simp only [toDouble, roundWith, near, reachable]
  simp [positive.ne', nearestDouble, numerator.ne', rounded]

end Letterpress.Decimal
