import Letterpress.Json.Double
import Letterpress.Proofs.Decimal.Doubles
import Letterpress.Proofs.Decimal.Rounding
import Letterpress.Proofs.Json.Numeral

/-!
What is written for a finite double is read as some double, though it may be another one.
The numeral keeps the size of the decimal, and the two roundings on the way back enlarge that
size by less than the distance from the largest doubles but five to what is out of range.
-/

namespace Letterpress

def Numeral.toDecimal (numeral : Numeral) : Decimal :=
  ⟨numeral.negative, Decimal.ofDigits (numeral.whole ++ numeral.places),
    numeral.exponent - numeral.places.length⟩

namespace Decimal

open Numeral Float.Model

theorem of_digits_append (front back : List Char) :
    ofDigits (front ++ back) = ofDigits front * 10 ^ back.length + ofDigits back := by
  induction back using List.reverseRecOn with
  | nil => simp [ofDigits]
  | append_singleton back last shorter =>
      simp only [ofDigits, ← List.append_assoc, List.foldl_append, List.foldl_cons,
        List.foldl_nil] at shorter ⊢
      rw [shorter, List.length_append, List.length_singleton, pow_succ]
      ring

theorem of_zeros (count : Nat) : ofDigits (List.replicate count '0') = 0 := by
  have same := of_digits_zeros count []
  rwa [List.append_nil] at same

theorem to_decimal_scientific (negative : Bool) (whole places : List Char) (leading : Int) :
    (Numeral.mk negative whole places (some (leading < 0, digitsOf leading.natAbs))).toDecimal =
      ⟨negative, ofDigits (whole ++ places), leading - places.length⟩ := by
  have value := of_digits_digits_of leading.natAbs
  by_cases below : leading < 0
  · have power : -((leading.natAbs : ℕ) : Int) = leading := by omega
    simp only [Numeral.toDecimal, Numeral.exponent, below, decide_true, value, power]
  · have power : ((leading.natAbs : ℕ) : Int) = leading := by omega
    simp only [Numeral.toDecimal, Numeral.exponent, below, decide_false, value, power]

theorem to_decimal_plain (negative : Bool) (whole places : List Char) :
    (Numeral.mk negative whole places none).toDecimal =
      ⟨negative, ofDigits (whole ++ places), -places.length⟩ := by
  simp [Numeral.toDecimal, Numeral.exponent]

/-- The numeral of a decimal may move the point, but keeps the size. -/
theorem size_of_numeral (decimal : Decimal) :
    (Numeral.ofDecimal decimal).toDecimal.negative = decimal.negative ∧
      (Numeral.ofDecimal decimal).toDecimal.size = decimal.size := by
  have value := of_digits_digits_of decimal.digits
  have some_digit : 0 < (digitsOf decimal.digits).length := Nat.length_toDigits_pos
  unfold Numeral.ofDecimal
  dsimp only
  split
  · next zero =>
      rw [beq_iff_eq] at zero
      simp [to_decimal_plain, size, zero, ofDigits, digitValue]
  · generalize digitsOf decimal.digits = digits at value some_digit ⊢
    split
    · rw [to_decimal_scientific, List.take_append_drop, value]
      refine ⟨rfl, ?_⟩
      have exponent : decimal.exponent + digits.length - 1 - (digits.drop 1).length =
          decimal.exponent := by
        rw [List.length_drop]
        omega
      rw [size, exponent]
      rfl
    · split
      · next below =>
          have zeros : ofDigits ('0' :: List.replicate
              ((decimal.exponent + digits.length - 1).natAbs - 1) '0') = 0 :=
            of_zeros (_ + 1)
          rw [to_decimal_plain, List.singleton_append, ← List.cons_append, of_digits_append,
            zeros, value]
          refine ⟨rfl, ?_⟩
          have exponent : -((List.replicate
              ((decimal.exponent + digits.length - 1).natAbs - 1) '0' ++
              digits).length : Int) = decimal.exponent := by
            rw [List.length_append, List.length_replicate]
            omega
          simp only [size, exponent, zero_mul, zero_add]
      · next within =>
          rw [to_decimal_plain]
          refine ⟨rfl, ?_⟩
          by_cases whole : 0 ≤ decimal.exponent
          · obtain ⟨zeros, exponent⟩ := Int.eq_ofNat_of_zero_le whole
            have missing : (decimal.exponent + digits.length - 1).toNat + 1 - digits.length =
                zeros := by omega
            have all : (decimal.exponent + digits.length - 1).toNat + 1 =
                (digits ++ List.replicate zeros '0').length := by
              rw [List.length_append, List.length_replicate]
              omega
            rw [missing, all, List.take_length, List.drop_length]
            simp only [List.isEmpty_nil, if_true, size, of_digits_append, of_zeros, value,
              List.length_replicate, List.length_singleton, exponent, zpow_natCast]
            push_cast
            simp [ofDigits, digitValue]
          · have missing : (decimal.exponent + digits.length - 1).toNat + 1 - digits.length =
                0 := by omega
            have places : (digits.drop ((decimal.exponent + digits.length - 1).toNat + 1)).length =
                -decimal.exponent := by
              rw [List.length_drop]
              omega
            have some_place :
                (digits.drop ((decimal.exponent + digits.length - 1).toNat + 1)).isEmpty =
                  false := by
              rw [List.isEmpty_eq_false_iff, ← List.length_pos_iff]
              omega
            rw [missing, List.replicate_zero, List.append_nil, some_place]
            simp only [Bool.false_eq_true, if_false, List.take_append_drop, value, size, places,
              neg_neg]

theorem of_digits_cons (first : Char) (rest : List Char) :
    ofDigits (first :: rest) = digitValue first * 10 ^ rest.length + ofDigits rest := by
  have joined := of_digits_append [first] rest
  simpa [ofDigits] using joined

/-- Digits that are left are worth no less than zeros in their places. -/
theorem take_digits_le (number : Nat) (digits : List Char) :
    (takeDigits number digits).1 * 10 ^ (takeDigits number digits).2 ≤
        number * 10 ^ digits.length + ofDigits digits ∧
      (takeDigits number digits).2 ≤ digits.length ∧
      (number < 2 ^ 64 → (takeDigits number digits).1 < 2 ^ 64) := by
  induction digits generalizing number with
  | nil => exact ⟨Nat.le_refl _, Nat.le_refl _, id⟩
  | cons first rest later =>
      rw [takeDigits]
      split
      · exact ⟨Nat.le_add_right _ _, Nat.le_refl _, id⟩
      · next fits =>
          obtain ⟨value, fewer, word⟩ := later (10 * number + digitValue first)
          refine ⟨value.trans (Nat.le_of_eq ?_), Nat.le_succ_of_le fewer, fun _ =>
            word (Nat.lt_of_not_le fits)⟩
          rw [of_digits_cons, List.length_cons, pow_succ]
          ring

theorem take_digits_all {number : Nat} {digits : List Char}
    (fits : number * 10 ^ digits.length + ofDigits digits < 2 ^ 64) :
    takeDigits number digits = (number * 10 ^ digits.length + ofDigits digits, 0) := by
  induction digits generalizing number with
  | nil => simp [takeDigits, ofDigits]
  | cons first rest later =>
      have value : number * 10 ^ (first :: rest).length + ofDigits (first :: rest) =
          (10 * number + digitValue first) * 10 ^ rest.length + ofDigits rest := by
        rw [of_digits_cons, List.length_cons, pow_succ]
        ring
      rw [value] at fits ⊢
      have word : 10 * number + digitValue first < UInt64.size :=
        lt_of_le_of_lt ((Nat.le_mul_of_pos_right _ (by positivity)).trans (Nat.le_add_right _ _))
          fits
      rw [takeDigits, if_neg (Nat.not_le_of_lt word)]
      exact later fits

/-- Where all whole digits fit, what is read is scaled from a size that is not larger. -/
theorem double_of_numeral {numeral : Numeral} (fits : ofDigits numeral.whole < 2 ^ 64) :
    ∃ (significand : Nat) (exponent : Int), significand < 2 ^ 64 ∧
      (significand : ℚ) * 10 ^ exponent ≤ numeral.toDecimal.size ∧
      numeral.toDouble? = (scale? significand exponent).map (withSign numeral.negative) := by
  have whole : takeDigits 0 numeral.whole = (ofDigits numeral.whole, 0) := by
    have zero : 0 * 10 ^ numeral.whole.length + ofDigits numeral.whole =
        ofDigits numeral.whole := by
      rw [Nat.zero_mul, Nat.zero_add]
    rw [take_digits_all (zero.symm ▸ fits), zero]
  obtain ⟨value, fewer, word⟩ := take_digits_le (ofDigits numeral.whole) numeral.places
  refine ⟨(takeDigits (ofDigits numeral.whole) numeral.places).1,
    numeral.exponent + (0 : ℕ) -
      (numeral.places.length - (takeDigits (ofDigits numeral.whole) numeral.places).2 : ℕ),
    word fits, ?_, ?_⟩
  · rw [size, Numeral.toDecimal, of_digits_append]
    generalize takeDigits (ofDigits numeral.whole) numeral.places = taken at value fewer
    have places : numeral.exponent + (0 : ℕ) - (numeral.places.length - taken.2 : ℕ) =
        numeral.exponent - numeral.places.length + taken.2 := by omega
    have value_size : (taken.1 : ℚ) * 10 ^ taken.2 ≤
        (ofDigits numeral.whole * 10 ^ numeral.places.length + ofDigits numeral.places : ℕ) := by
      exact_mod_cast value
    rw [places, zpow_add₀ (by norm_num), zpow_natCast, mul_comm ((10 : ℚ) ^ _), ← mul_assoc]
    exact mul_le_mul_of_nonneg_right value_size (by positivity)
  · rw [toDouble?, whole]

def nearTens (tens : Nat) : UnpackedFloat → Bool
  | .finite .positive m e _ =>
      2 ^ 52 ≤ m && m < 2 ^ 53 && -52 ≤ e &&
        m * 2 ^ 52 * twoTo e ≤ 10 ^ tens * (2 ^ 52 + 1) * twoTo (-e)
  | _ => false

theorem tens_near : ∀ tens ≤ 308, nearTens tens (powerOfTen tens).toModel.unpack = true := by
  decide +kernel

theorem tens_full {tens : Nat} (small : tens ≤ mostTens) :
    ∃ m e, Full (powerOfTen tens).toModel.unpack m e ∧ -52 ≤ e ∧
      (m : ℚ) * 2 ^ e ≤ 10 ^ tens * (1 + 2⁻¹ ^ 52) := by
  have near := tens_near tens small
  unfold nearTens at near
  split at near
  · next m e positive unpacked =>
      simp only [Bool.and_eq_true, decide_eq_true_eq] at near
      obtain ⟨⟨⟨least, most⟩, above⟩, close⟩ := near
      refine ⟨m, e, ⟨⟨positive, unpacked⟩, least, most⟩, above, ?_⟩
      have close_size : (m : ℚ) * 2 ^ 52 * twoTo e ≤ 10 ^ tens * (2 ^ 52 + 1) * twoTo (-e) := by
        exact_mod_cast close
      have down : (0 : ℚ) < twoTo (-e) := by exact_mod_cast two_to_pos (-e)
      rw [← two_to_ratio, ← mul_div_assoc, div_le_iff₀ down]
      rw [inv_pow]
      have unit : (0 : ℚ) < 2 ^ 52 := by positivity
      have rest : (10 : ℚ) ^ tens * (1 + (2 ^ 52)⁻¹) * twoTo (-e) =
          10 ^ tens * (2 ^ 52 + 1) * twoTo (-e) / 2 ^ 52 := by
        field_simp
      rw [rest, le_div_iff₀ unit]
      linarith
  · cases near

theorem grows {number tens : Nat} (word : number < 2 ^ 64) (small : tens ≤ mostTens)
    (reachable : (number : ℚ) * 10 ^ tens * (1 + 2⁻¹ ^ 52) ^ 2 < outOfRange) :
    (grow? (UInt64.ofNat number).toFloat tens).isSome = true := by
  obtain ⟨n, f, tens_whole, tens_least, tens_near⟩ := tens_full small
  have finite : ((UInt64.ofNat number).toFloat * powerOfTen tens).isInf = false := by
    rcases Nat.eq_zero_or_pos number with rfl | positive
    · obtain ⟨⟨some_tens, unpacked⟩, -, -⟩ := tens_whole
      change (UnpackedFloat.unpack .binary64 (UnpackedFloat.pack .binary64
        (UnpackedFloat.mul .binary64 (UInt64.ofNat 0).toFloat.toModel.unpack
          (powerOfTen tens).toModel.unpack))).isInf = false
      rw [unpacked]
      have zero : (UInt64.ofNat 0).toFloat.toModel.unpack = .zero .positive := by rfl
      rw [zero]
      change (UnpackedFloat.unpack .binary64 (UnpackedFloat.pack .binary64
        (.zero .positive))).isInf = false
      decide
    · obtain ⟨m, e, whole, least, near⟩ := word_full positive word
      apply product_finite whole tens_whole (by omega)
      refine lt_of_le_of_lt ?_ reachable
      calc (m : ℚ) * 2 ^ e * (n * 2 ^ f)
          ≤ number * (1 + 2⁻¹ ^ 52) * (10 ^ tens * (1 + 2⁻¹ ^ 52)) := by gcongr
        _ = number * 10 ^ tens * (1 + 2⁻¹ ^ 52) ^ 2 := by ring
  unfold grow?
  rw [if_pos small]
  simp [finite]

/-- A size that stays in range when it is rounded twice has a double. -/
theorem scale_reads {significand : Nat} {exponent : Int} (word : significand < 2 ^ 64)
    (reachable : (significand : ℚ) * 10 ^ exponent * (1 + 2⁻¹ ^ 52) ^ 2 < outOfRange) :
    (scale? significand exponent).isSome = true := by
  unfold scale?
  dsimp only
  split
  · next whole =>
      obtain ⟨tens, rfl⟩ := Int.eq_ofNat_of_zero_le whole
      rw [zpow_natCast] at reachable
      rw [Int.toNat_natCast]
      by_cases small : tens ≤ mostTens
      · exact grows word small reachable
      · rcases Nat.eq_zero_or_pos significand with rfl | positive
        · have zero : ((UInt64.ofNat 0).toFloat == 0) = true := by decide
          rw [grow?, if_neg small, if_pos zero]
          rfl
        · exfalso
          have least : (1 : ℚ) ≤ significand := by exact_mod_cast positive
          have tens_large : (10 : ℚ) ^ 309 ≤ 10 ^ tens :=
            pow_le_pow_right₀ (by norm_num) (Nat.lt_of_not_le small)
          have larger : (10 : ℚ) ^ tens ≤
              significand * 10 ^ tens * (1 + 2⁻¹ ^ 52) ^ 2 := by
            rw [mul_right_comm]
            exact le_mul_of_one_le_left (by positivity)
              (one_le_mul_of_one_le_of_one_le least (one_le_pow₀ (by norm_num)))
          exact absurd (out_of_range_lt.trans_le (tens_large.trans larger))
            (not_lt.mpr reachable.le)
  · rfl

theorem of_digits_lt {digits : List Char} (all : ∀ char ∈ digits, isDigit char = true) :
    ofDigits digits < 10 ^ digits.length := by
  induction digits with
  | nil => exact Nat.one_pos
  | cons first rest later =>
      have digit := all first (List.mem_cons_self ..)
      simp only [isDigit, Char.le_def, Bool.and_eq_true, decide_eq_true_eq] at digit
      have most : digitValue first ≤ 9 := Nat.sub_le_sub_right digit.2 48
      have rest_value := later fun char member => all char (List.mem_cons_of_mem _ member)
      rw [of_digits_cons, List.length_cons, pow_succ]
      have first_value := Nat.mul_le_mul_right (10 ^ rest.length) most
      omega

/-- At most sixteen digits stand before a point. -/
theorem whole_of_decimal (decimal : Decimal) :
    ofDigits (Numeral.ofDecimal decimal).whole < 2 ^ 64 := by
  have short : (Numeral.ofDecimal decimal).whole.length ≤ 16 := by
    unfold Numeral.ofDecimal
    dsimp only
    split
    · simp
    · split
      · simp
      · next within =>
          simp only [Bool.or_eq_true, decide_eq_true_eq, not_or, not_le] at within
          split
          · simp
          · rw [List.length_take]
            omega
  calc ofDigits (Numeral.ofDecimal decimal).whole
      < 10 ^ (Numeral.ofDecimal decimal).whole.length :=
        of_digits_lt (Numeral.plain_of_decimal decimal).whole.2
    _ ≤ 10 ^ 16 := Nat.pow_le_pow_right (by norm_num) short
    _ < 2 ^ 64 := by norm_num

/-- The last doubles may go out of range on the way, but do not. -/
theorem last_read : ∀ negative, ∀ below < 5, ∃ number,
    (Numeral.ofDecimal ⟨negative, (shortestPositive .even ⟨2 ^ 53 - 1 - below, 971⟩).1,
      (shortestPositive .even ⟨2 ^ 53 - 1 - below, 971⟩).2⟩).toDouble? = some number := by
  simp only [← Option.isSome_iff_exists]
  decide +kernel

theorem attracted_reachable {magnitude : Dyadic} {size : ℚ} (canonical : magnitude.Canonical)
    (attracts : magnitude.Attracts size)
    (before : magnitude.exponent = 971 → magnitude.mantissa < 2 ^ 53 - 5) :
    size * (1 + 2⁻¹ ^ 52) ^ 2 < outOfRange := by
  have most := attracts.below
  rw [Dyadic.interval_top] at most
  have unit : (0 : ℚ) < 2 ^ magnitude.exponent := by positivity
  refine lt_of_le_of_lt (mul_le_mul_of_nonneg_right most (by positivity)) ?_
  rw [outOfRange]
  rcases canonical.most.eq_or_lt with top | lower
  · have fewer := before top
    have less : (magnitude.mantissa : ℚ) ≤ (2 ^ 53 - 6 : ℕ) := Nat.cast_le.mpr (by omega)
    rw [top, mul_right_comm]
    rw [top] at unit
    apply mul_lt_mul_of_pos_right _ unit
    calc ((magnitude.mantissa : ℚ) + 1 / 2) * (1 + 2⁻¹ ^ 52) ^ 2
        ≤ ((2 ^ 53 - 6 : ℕ) + 1 / 2) * (1 + 2⁻¹ ^ 52) ^ 2 :=
          mul_le_mul_of_nonneg_right (add_le_add less le_rfl) (by positivity)
      _ < 2 ^ 53 - 1 := by norm_num
  · have half : (2 : ℚ) ^ magnitude.exponent * 2 ≤ 2 ^ (971 : Int) := by
      rw [← zpow_add_one₀ two_ne_zero]
      exact zpow_le_zpow_right₀ one_le_two (by omega)
    have less : (magnitude.mantissa : ℚ) + 1 ≤ 2 ^ 53 := by exact_mod_cast canonical.bounded
    generalize (2 : ℚ) ^ magnitude.exponent = step at unit half ⊢
    generalize (2 : ℚ) ^ (971 : Int) = last at half ⊢
    norm_num at less ⊢
    nlinarith

theorem positive_reads {magnitude : Dyadic} (negative : Bool) (canonical : magnitude.Canonical) :
    ∃ number, (Numeral.ofDecimal ⟨negative, (shortestPositive .even magnitude).1,
      (shortestPositive .even magnitude).2⟩).toDouble? = some number := by
  have attracts := Dyadic.shortest_attracted canonical .even
  by_cases last : magnitude.exponent = 971 ∧ 2 ^ 53 - 5 ≤ magnitude.mantissa
  · obtain ⟨mantissa, exponent⟩ := magnitude
    obtain ⟨rfl, large⟩ := last
    have bounded := canonical.bounded
    dsimp only at large bounded
    have near : mantissa = 2 ^ 53 - 1 - (2 ^ 53 - 1 - mantissa) := by omega
    rw [near]
    exact last_read negative _ (by omega)
  · generalize shortestPositive .even magnitude = shortest at attracts ⊢
    obtain ⟨significand, exponent, word, less, same⟩ :=
      double_of_numeral (whole_of_decimal ⟨negative, shortest.1, shortest.2⟩)
    rw [(size_of_numeral _).2] at less
    have reachable := attracted_reachable canonical attracts (by omega)
    have read : (scale? significand exponent).isSome = true := by
      apply scale_reads word
      refine lt_of_le_of_lt ?_ reachable
      exact mul_le_mul_of_nonneg_right less (by positivity)
    obtain ⟨number, here⟩ := Option.isSome_iff_exists.mp read
    exact ⟨_, by rw [same, here, Option.map_some]⟩

/-- What is written for a finite double is read, though perhaps as another double. -/
theorem numeral_of_float_reads {number : Float}
    (finite : (Dyadic.ofFloat? number).isSome = true) :
    ∃ decimal again, ofFloat? .even number = some decimal ∧
      (Numeral.ofDecimal decimal).toDouble? = some again := by
  cases written : ofFloat? .even number with
  | none =>
      obtain ⟨parts, found⟩ := Option.isSome_iff_exists.mp finite
      simp only [ofFloat?, found] at written
      split at written <;> cases written
  | some decimal =>
      obtain ⟨negative, magnitude, -, ⟨-, rfl⟩ | ⟨canonical, rfl⟩⟩ := decimal_of_float written
      · cases negative with
        | false => exact ⟨_, withSign false (UInt64.ofNat 0).toFloat, rfl, by decide +kernel⟩
        | true => exact ⟨_, withSign true (UInt64.ofNat 0).toFloat, rfl, by decide +kernel⟩
      · obtain ⟨again, read⟩ := positive_reads negative canonical
        exact ⟨_, again, rfl, read⟩

end Decimal

end Letterpress
