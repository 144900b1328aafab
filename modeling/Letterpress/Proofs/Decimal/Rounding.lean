import Mathlib

/-!
How far the operations on doubles round. A number that is not below all powers of two keeps
a full mantissa and moves by less than its last place. So the double of a word and the product
of two doubles are hardly larger than they should be, and finite if there is room for that.
-/

namespace Letterpress.Decimal

open Float.Model Float.Model.UnpackedFloat

theorem shifted_mantissa (extended : ExtendedMantissa) (count : Nat) :
    (extended >>> count).mantissa = extended.mantissa / 2 ^ count := by
  induction count generalizing extended with
  | zero => exact (Nat.div_one _).symm
  | succ count shifted =>
      change (extended >>> count).mantissa / 2 = _
      rw [shifted, Nat.div_div_eq_div_mul, Nat.pow_succ]

theorem rounded_mantissa (extended : ExtendedMantissa) :
    extended.mantissa ≤ extended.roundedMantissa ∧
      extended.roundedMantissa ≤ extended.mantissa + 1 := by
  obtain ⟨mantissa, round, sticky⟩ := extended
  cases round <;> cases sticky <;>
    simp only [ExtendedMantissa.roundedMantissa, ExtendedMantissa.accuracy,
      Accuracy.roundToNearestEven] <;> omega

theorem shift_fitting {mantissa : Nat} {exponent : Int} (fits : mantissa.log2 = 52)
    (least : -1074 ≤ exponent) :
    shiftToTargetExponent .binary64 mantissa exponent .exact =
      (⟨mantissa, false, false⟩, exponent) := by
  have target : Format.binary64.targetExponent (totalExponent mantissa exponent) = exponent := by
    simp only [Format.targetExponent, totalExponent, Format.mantissaBits, Format.minExponent, fits]
    norm_num
    omega
  unfold shiftToTargetExponent shiftToExponent
  dsimp only
  rw [target, Int.sub_self]
  exact Prod.ext rfl (Int.add_zero exponent)

theorem shift_carried {exponent : Int} (least : -1074 ≤ exponent) :
    shiftToTargetExponent .binary64 (2 ^ 53) exponent .exact =
      (⟨2 ^ 52, false, false⟩, exponent + 1) := by
  have target : Format.binary64.targetExponent (totalExponent (2 ^ 53) exponent) =
      exponent + 1 := by
    simp only [Format.targetExponent, totalExponent, Format.mantissaBits, Format.minExponent,
      Nat.log2_two_pow]
    norm_num
    omega
  unfold shiftToTargetExponent shiftToExponent
  dsimp only
  rw [target, add_sub_cancel_left]
  rfl

theorem div_full {mantissa : Nat} (full : 52 ≤ mantissa.log2) :
    2 ^ 52 ≤ mantissa / 2 ^ (mantissa.log2 - 52) ∧
      mantissa / 2 ^ (mantissa.log2 - 52) < 2 ^ 53 := by
  have some_bit : mantissa ≠ 0 := by
    rintro rfl
    simp at full
  have least := Nat.log2_self_le some_bit
  have most := Nat.lt_log2_self (n := mantissa)
  constructor
  · rw [Nat.le_div_iff_mul_le (by positivity), ← Nat.pow_add]
    rwa [Nat.add_sub_cancel' full]
  · rw [Nat.div_lt_iff_lt_mul (by positivity), ← Nat.pow_add]
    rwa [show 53 + (mantissa.log2 - 52) = mantissa.log2 + 1 by omega]

/-- A double that is not below all powers of two, as its full mantissa and its exponent. -/
structure Full (unpacked : UnpackedFloat) (mantissa : Nat) (exponent : Int) : Prop where
  parts : ∃ positive, unpacked = .finite .positive mantissa exponent positive
  least : 2 ^ 52 ≤ mantissa
  most : mantissa < 2 ^ 53

/-- Rounding cuts a mantissa after its first bits, or goes up by one from there. -/
theorem rounds_full {mantissa : Nat} {exponent : Int} (full : 52 ≤ mantissa.log2)
    (normal : -1022 ≤ mantissa.log2 + exponent) :
    ∃ rounded kept moved,
      Full (roundWithAccuracy .binary64 .positive mantissa exponent .exact) kept moved ∧
      mantissa / 2 ^ (mantissa.log2 - 52) ≤ rounded ∧
      rounded ≤ mantissa / 2 ^ (mantissa.log2 - 52) + 1 ∧
      (kept = rounded ∧ moved = exponent + (mantissa.log2 - 52) ∨
        rounded = 2 ^ 53 ∧ kept = 2 ^ 52 ∧ moved = exponent + (mantissa.log2 - 52) + 1) := by
  obtain ⟨least, most⟩ := div_full full
  have target : Format.binary64.targetExponent (totalExponent mantissa exponent) =
      exponent + (mantissa.log2 - 52) := by
    simp only [Format.targetExponent, totalExponent, Format.mantissaBits, Format.minExponent]
    norm_num
    omega
  have shifted : shiftToTargetExponent .binary64 mantissa exponent .exact =
      (ExtendedMantissa.mk mantissa false false >>> (mantissa.log2 - 52),
        exponent + (mantissa.log2 - 52)) := by
    unfold shiftToTargetExponent shiftToExponent
    dsimp only
    rw [target, add_sub_cancel_left]
    have count : ((mantissa.log2 : Int) - 52).toNat = mantissa.log2 - 52 := by omega
    rw [count]
    exact Prod.ext rfl (by dsimp only; omega)
  obtain ⟨low, high⟩ :=
    rounded_mantissa (ExtendedMantissa.mk mantissa false false >>> (mantissa.log2 - 52))
  rw [shifted_mantissa] at low high
  dsimp only at low high
  unfold roundWithAccuracy
  rw [shifted]
  dsimp only
  generalize ExtendedMantissa.roundedMantissa _ = rounded at low high ⊢
  rcases Nat.lt_or_ge rounded (2 ^ 53) with fits | carries
  · have bits : rounded.log2 = 52 :=
      (Nat.log2_eq_iff (by omega)).mpr ⟨by omega, fits⟩
    rw [shift_fitting bits (by omega)]
    refine ⟨rounded, rounded, _, ⟨⟨by omega, ?_⟩, by omega, fits⟩, low, high, .inl ⟨rfl, rfl⟩⟩
    exact dif_neg (by dsimp only; omega)
  · obtain rfl : rounded = 2 ^ 53 := by omega
    rw [shift_carried (by omega)]
    exact ⟨2 ^ 53, 2 ^ 52, _, ⟨⟨by norm_num, dif_neg (by norm_num)⟩, by norm_num, by norm_num⟩,
      low, high, .inr ⟨rfl, rfl, rfl⟩⟩

def outOfRange : ℚ := (2 ^ 53 - 1) * 2 ^ (971 : Int)

theorem out_of_range_lt : outOfRange < 10 ^ 309 :=
  calc outOfRange < 2 ^ 53 * 2 ^ (971 : Int) :=
        mul_lt_mul_of_pos_right (by norm_num) (by positivity)
    _ = 2 * ((2 : ℚ) ^ 93) ^ 11 := by
        rw [zpow_ofNat, ← pow_mul, ← pow_add, ← pow_succ']
    _ ≤ 10 * ((10 : ℚ) ^ 28) ^ 11 :=
        mul_le_mul (by norm_num) (pow_le_pow_left₀ (by norm_num) (by norm_num) 11) (by positivity)
          (by norm_num)
    _ = 10 ^ 309 := by rw [← pow_mul, ← pow_succ']

/-- From the last place on, a full mantissa that is cut or carried is out of range. -/
theorem top_of_places {quotient rounded : Nat} {place : Int} (least : 2 ^ 52 ≤ quotient)
    (high : rounded ≤ quotient + 1)
    (places : 972 ≤ place ∨ rounded = 2 ^ 53 ∧ 971 ≤ place) :
    outOfRange ≤ quotient * 2 ^ place := by
  have positive : (0 : ℚ) < 2 ^ (971 : Int) := by positivity
  rw [outOfRange]
  rcases places with above | ⟨rfl, at_top⟩
  · have least_size : (2 : ℚ) ^ 52 ≤ quotient := by exact_mod_cast least
    have top : (2 : ℚ) ^ (972 : Int) ≤ 2 ^ place := zpow_le_zpow_right₀ one_le_two above
    have half : (2 : ℚ) ^ (972 : Int) = 2 * 2 ^ (971 : Int) := by
      rw [show (972 : Int) = 1 + 971 by norm_num, zpow_add₀ two_ne_zero, zpow_one]
    calc (2 ^ 53 - 1 : ℚ) * 2 ^ (971 : Int) ≤ 2 ^ 52 * 2 ^ (972 : Int) := by
          rw [half]
          generalize (2 : ℚ) ^ (971 : Int) = last at positive ⊢
          linarith
      _ ≤ quotient * 2 ^ place := mul_le_mul least_size top (by positivity) (by positivity)
  · have top : (2 : ℚ) ^ (971 : Int) ≤ 2 ^ place := zpow_le_zpow_right₀ one_le_two at_top
    have last : (2 ^ 53 : ℚ) ≤ quotient + 1 := by exact_mod_cast high
    exact mul_le_mul (by linarith) top positive.le (Nat.cast_nonneg _)

/-- Rounding moves a number by less than its last place, and not out of range. -/
theorem rounds_within {mantissa : Nat} {exponent : Int} (full : 52 ≤ mantissa.log2)
    (normal : -1022 ≤ mantissa.log2 + exponent) :
    ∃ kept moved,
      Full (roundWithAccuracy .binary64 .positive mantissa exponent .exact) kept moved ∧
      exponent ≤ moved ∧ (kept : ℚ) * 2 ^ moved ≤ mantissa * 2 ^ exponent * (1 + 2⁻¹ ^ 52) ∧
      ((mantissa : ℚ) * 2 ^ exponent < outOfRange → moved ≤ 971) := by
  obtain ⟨rounded, kept, moved, whole, low, high, places⟩ := rounds_full full normal
  obtain ⟨shift, bits⟩ := Nat.exists_eq_add_of_le full
  have count : mantissa.log2 - 52 = shift := by omega
  have moves : exponent + ((mantissa.log2 : Int) - 52) = exponent + shift := by omega
  obtain ⟨least, -⟩ := div_full full
  have cut := Nat.div_mul_le_self mantissa (2 ^ shift)
  rw [count] at low high least
  rw [moves] at places
  generalize mantissa / 2 ^ shift = quotient at low high least cut
  have unit : (0 : ℚ) < 2 ^ exponent := by positivity
  have step : (0 : ℚ) < 2 ^ shift := by positivity
  have size : (2 : ℚ) ^ (exponent + shift) = 2 ^ exponent * 2 ^ shift := by
    rw [zpow_add₀ two_ne_zero, zpow_natCast]
  have cut_size : (quotient : ℚ) * 2 ^ shift ≤ mantissa := by exact_mod_cast cut
  have high_size : (rounded : ℚ) ≤ quotient + 1 := by exact_mod_cast high
  have least_size : (2 : ℚ) ^ 52 ≤ quotient := by exact_mod_cast least
  have value : (kept : ℚ) * 2 ^ moved = rounded * 2 ^ shift * 2 ^ exponent := by
    rcases places with ⟨rfl, rfl⟩ | ⟨rfl, rfl, rfl⟩
    · rw [size]
      ring
    · rw [zpow_add₀ two_ne_zero, size]
      push_cast
      ring
  refine ⟨kept, moved, whole, by omega, ?_, ?_⟩
  · have small : (2 : ℚ) ^ shift ≤ mantissa * 2⁻¹ ^ 52 := by
      rw [inv_pow, ← div_eq_mul_inv, le_div_iff₀ (by positivity)]
      nlinarith
    calc (kept : ℚ) * 2 ^ moved = rounded * 2 ^ shift * 2 ^ exponent := value
      _ ≤ mantissa * (1 + 2⁻¹ ^ 52) * 2 ^ exponent :=
          mul_le_mul_of_nonneg_right (by nlinarith) unit.le
      _ = mantissa * 2 ^ exponent * (1 + 2⁻¹ ^ 52) := by ring
  · intro reachable
    by_contra beyond
    have tops : outOfRange ≤ quotient * 2 ^ (exponent + shift) :=
      top_of_places least high (by omega)
    rw [size] at tops
    nlinarith

theorem unpack_packed {mantissa : Nat} {exponent : Int} (positive : 0 < mantissa)
    (least : 2 ^ 52 ≤ mantissa) (most : mantissa < 2 ^ 53) (normal : -1074 ≤ exponent)
    (finite : exponent ≤ 971) :
    UnpackedFloat.unpack .binary64 (UnpackedFloat.pack .binary64
      (.finite .positive mantissa exponent positive)) =
        .finite .positive mantissa exponent positive := by
  have bits : mantissa.log2 = 52 := (Nat.log2_eq_iff (by omega)).mpr ⟨least, most⟩
  obtain ⟨biased, place⟩ : ∃ biased : Nat, exponent = biased - 1075 :=
    ⟨(exponent + 1075).toNat, by omega⟩
  have packed : UnpackedFloat.pack .binary64 (.finite .positive mantissa exponent positive) =
      packComponents .binary64 .positive (.ofNat 11 biased) (.ofNat 52 mantissa) := by
    have bias : (exponent + (Format.binary64.exponentBias : Nat) + (52 : Nat)).toNat = biased := by
      rw [Format.exponentBias]
      norm_num
      omega
    simp only [UnpackedFloat.pack, bits, bias]
    rw [if_neg (by norm_num; omega)]
    exact if_pos rfl
  have exponent_bits : (BitVec.ofNat 11 biased).toNat = biased := Nat.mod_eq_of_lt (by omega)
  have bounded : BitVec.ofNat 11 biased ≠ -1#11 := by
    intro same
    rw [same] at exponent_bits
    change 2047 = _ at exponent_bits
    omega
  have some_bit : BitVec.ofNat 11 biased ≠ 0#11 := by
    intro same
    rw [same] at exponent_bits
    change 0 = _ at exponent_bits
    omega
  have mantissa_bits : (1#1 ++ BitVec.ofNat 52 mantissa).toNat = mantissa := by
    rw [BitVec.toNat_append, ← Nat.shiftLeft_add_eq_or_of_lt (BitVec.ofNat 52 mantissa).isLt,
      Nat.shiftLeft_eq]
    change 1 * 2 ^ 52 + mantissa % 2 ^ 52 = mantissa
    omega
  rw [packed]
  unfold UnpackedFloat.unpack
  simp only [unpackSign_packComponents, unpackExponent_packComponents,
    unpackMantissa_packComponents, Sign.ofBitVec_toBitVec]
  rw [if_neg bounded, if_neg some_bit]
  congr 1
  rw [exponent_bits, Format.exponentBias]
  norm_num
  omega

/-- The product of doubles is a double where the exact product is in range. -/
theorem product_finite {left right : Float} {m n : Nat} {e f : Int}
    (left_full : Full left.toModel.unpack m e) (right_full : Full right.toModel.unpack n f)
    (normal : -1074 ≤ e + f) (reachable : (m : ℚ) * 2 ^ e * (n * 2 ^ f) < outOfRange) :
    (left * right).isInf = false := by
  obtain ⟨⟨some_left, left_parts⟩, left_least, left_most⟩ := left_full
  obtain ⟨⟨some_right, right_parts⟩, right_least, right_most⟩ := right_full
  have large : 2 ^ 104 ≤ m * n := by
    calc 2 ^ 104 = 2 ^ 52 * 2 ^ 52 := by norm_num
      _ ≤ m * n := Nat.mul_le_mul left_least right_least
  have bits : 104 ≤ (m * n).log2 := (Nat.le_log2 (by omega)).mpr large
  obtain ⟨kept, moved, ⟨⟨positive, product⟩, least, most⟩, above, -, finite⟩ :=
    rounds_within (show 52 ≤ (m * n).log2 by omega)
      (show -1022 ≤ ((m * n).log2 : Int) + (e + f) by omega)
  have in_range : moved ≤ 971 := by
    apply finite
    rw [zpow_add₀ two_ne_zero]
    push_cast
    linarith
  change (UnpackedFloat.unpack .binary64 (UnpackedFloat.pack .binary64
    (UnpackedFloat.mul .binary64 left.toModel.unpack right.toModel.unpack))).isInf = false
  rw [left_parts, right_parts]
  change (UnpackedFloat.unpack .binary64 (UnpackedFloat.pack .binary64
    (roundWithAccuracy .binary64 .positive (m * n) (e + f) .exact))).isInf = false
  rw [product, unpack_packed positive least most (by omega) in_range]
  rfl

theorem log_of_padded {number : Nat} (positive : 0 < number) (zeros : Nat) :
    (number * 2 ^ zeros).log2 = number.log2 + zeros := by
  have least := Nat.log2_self_le positive.ne'
  have most := Nat.lt_log2_self (n := number)
  rw [Nat.log2_eq_iff (by positivity), Nat.add_right_comm, Nat.pow_add, Nat.pow_add]
  exact ⟨Nat.mul_le_mul_right _ least, Nat.mul_lt_mul_of_pos_right most (by positivity)⟩

/-- A word becomes a double by one rounding, after it is filled up to a full mantissa. -/
theorem word_rounded {number : Nat} (positive : 0 < number) (word : number < 2 ^ 64) :
    (UInt64.ofNat number).toFloat.toModel.unpack =
      UnpackedFloat.unpack .binary64 (UnpackedFloat.pack .binary64
        (roundWithAccuracy .binary64 .positive (number * 2 ^ (52 - number.log2))
          (-(52 - number.log2 : ℕ)) .exact)) := by
  have bits : number.log2 < 64 := (Nat.log2_lt positive.ne').mpr word
  have target : Format.binary64.targetExponent (totalExponent number 0) = number.log2 - 52 := by
    simp only [Format.targetExponent, totalExponent, Format.mantissaBits, Format.minExponent]
    norm_num
    omega
  have padded : decreaseExponent number 0
      (Format.binary64.targetExponent (totalExponent number 0)) =
        (number * 2 ^ (52 - number.log2), -((52 - number.log2 : ℕ) : Int)) := by
    unfold decreaseExponent
    dsimp only
    rw [target]
    have places : (0 - ((number.log2 : Int) - 52)).toNat = 52 - number.log2 := by omega
    rw [places, Nat.shiftLeft_eq]
    exact Prod.ext rfl (Int.zero_sub _)
  change UnpackedFloat.unpack .binary64 (UnpackedFloat.pack .binary64
    (UnpackedFloat.normalize .binary64 ((UInt64.ofNat number).toNat : Int) 0 .positive)) = _
  have kept : (UInt64.ofNat number).toNat = number := Nat.mod_eq_of_lt word
  have above : compare (number : Int) 0 = .gt := by
    rw [Int.compare_eq_gt]
    omega
  rw [kept, UnpackedFloat.normalize, above]
  dsimp only
  rw [UnpackedFloat.round, Int.toNat_natCast, padded]

theorem word_in_range {number : Nat} (word : number < 2 ^ 64) : (number : ℚ) < outOfRange := by
  have small : (number : ℚ) < 2 ^ 64 := by exact_mod_cast word
  have large : (2 : ℚ) ^ (64 : Int) ≤ 2 ^ (971 : Int) :=
    zpow_le_zpow_right₀ one_le_two (by norm_num)
  rw [zpow_ofNat] at large
  rw [outOfRange]
  generalize (2 : ℚ) ^ (971 : Int) = top at large ⊢
  linarith

/-- A whole number that fits a word is a double with a full mantissa, which is hardly larger. -/
theorem word_full {number : Nat} (positive : 0 < number) (word : number < 2 ^ 64) :
    ∃ m e, Full (UInt64.ofNat number).toFloat.toModel.unpack m e ∧ -52 ≤ e ∧
      (m : ℚ) * 2 ^ e ≤ number * (1 + 2⁻¹ ^ 52) := by
  have bits : number.log2 < 64 := (Nat.log2_lt positive.ne').mpr word
  have rounded := word_rounded positive word
  have padded_bits := log_of_padded positive (52 - number.log2)
  have value : ((number * 2 ^ (52 - number.log2) : ℕ) : ℚ) *
      2 ^ (-((52 - number.log2 : ℕ) : Int)) = number := by
    push_cast
    rw [zpow_neg, zpow_natCast]
    field_simp
  have most_zeros : 52 - number.log2 ≤ 52 := Nat.sub_le _ _
  have full : 52 ≤ (number * 2 ^ (52 - number.log2)).log2 := by omega
  generalize 52 - number.log2 = zeros at rounded value most_zeros full
  obtain ⟨kept, moved, ⟨⟨some_kept, whole⟩, least, most⟩, above, near, finite⟩ :=
    rounds_within full (show -1022 ≤ ((number * 2 ^ zeros).log2 : Int) + -(zeros : Int) by omega)
  rw [value] at near finite
  refine ⟨kept, moved, ⟨⟨some_kept, ?_⟩, least, most⟩, by omega, near⟩
  rw [rounded, whole,
    unpack_packed some_kept least most (by omega) (finite (word_in_range word))]

end Letterpress.Decimal
