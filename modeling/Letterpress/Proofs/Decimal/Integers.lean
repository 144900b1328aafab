import Mathlib
import Letterpress.Proofs.Decimal.Nearest

/-!
Integers as doubles. A double has 53 bits for its mantissa; an integer with more of them is
held as the nearest integer whose lower bits are clear. Rounding an integer keeps the order,
but not whether two integers differ.
-/

namespace Letterpress.Decimal

section RoundHalfEven

variable {numerator denominator factor : Nat}

theorem round_half_even_of_multiple (multiple : Nat) (positive : 0 < denominator) :
    roundHalfEven (multiple * denominator) denominator = multiple := by
  simp [roundHalfEven, positive]

theorem round_half_even_scaled (positive : 0 < factor) :
    roundHalfEven (numerator * factor) (denominator * factor) =
      roundHalfEven numerator denominator := by
  unfold roundHalfEven
  have nearer : 2 * (numerator % denominator * factor) < denominator * factor ↔
      2 * (numerator % denominator) < denominator := by
    rw [← Nat.mul_assoc, Nat.mul_lt_mul_right positive]
  have tie : 2 * (numerator % denominator * factor) = denominator * factor ↔
      2 * (numerator % denominator) = denominator := by
    rw [← Nat.mul_assoc, Nat.mul_left_inj positive.ne']
  simp only [Nat.mul_mod_mul_right, Nat.mul_div_mul_right _ _ positive, nearer, beq_iff_eq, tie,
    Bool.and_eq_true]

theorem round_half_even_bounds (numerator denominator : Nat) :
    numerator / denominator ≤ roundHalfEven numerator denominator ∧
      roundHalfEven numerator denominator ≤ numerator / denominator + 1 := by
  unfold roundHalfEven
  dsimp only
  split
  · omega
  · split <;> omega

theorem round_half_even_mono {greater : Nat} (less : numerator ≤ greater) :
    roundHalfEven numerator denominator ≤ roundHalfEven greater denominator := by
  have lower := round_half_even_bounds numerator denominator
  have upper := round_half_even_bounds greater denominator
  have quotients : numerator / denominator ≤ greater / denominator := Nat.div_le_div_right less
  rcases Nat.eq_or_lt_of_le quotients with same | apart
  · -- over the same multiple it is the remainders that decide
    have remainders : numerator % denominator ≤ greater % denominator := by
      have first := Nat.div_add_mod numerator denominator
      have second := Nat.div_add_mod greater denominator
      rw [same] at first
      omega
    unfold roundHalfEven
    simp only [same, beq_iff_eq, Bool.and_eq_true]
    split_ifs <;> omega
  · omega

end RoundHalfEven

/-- The nearest number with at most 53 significant bits. Half way between two it is the one
with the even mantissa. -/
def roundedNat (number : Nat) : Nat :=
  roundHalfEven number (2 ^ (number.log2 - 52)) * 2 ^ (number.log2 - 52)

section RoundedNat

variable {number greater : Nat}

/-- The least and the greatest of the numbers with as many bits. -/
theorem bits_of_full (full : 2 ^ 52 ≤ number) :
    2 ^ 52 * 2 ^ (number.log2 - 52) ≤ number ∧ number < 2 ^ 53 * 2 ^ (number.log2 - 52) := by
  have some_bits : number ≠ 0 := by omega
  have enough : 52 ≤ number.log2 := (Nat.le_log2 some_bits).mpr full
  have least := Nat.log2_self_le some_bits
  have most : number < 2 ^ (number.log2 + 1) := Nat.lt_log2_self
  rw [← pow_add, ← pow_add, show 52 + (number.log2 - 52) = number.log2 by omega,
    show 53 + (number.log2 - 52) = number.log2 + 1 by omega]
  exact ⟨least, most⟩

theorem log_of_short (short : number < 2 ^ 53) : number.log2 - 52 = 0 := by
  rcases Nat.eq_zero_or_pos number with rfl | positive
  · rfl
  · have bits : number.log2 < 53 := (Nat.log2_lt positive.ne').mpr short
    omega

theorem log_scaled (positive : 0 < number) (power : Nat) :
    (number * 2 ^ power).log2 = number.log2 + power := by
  have least := Nat.log2_self_le positive.ne'
  have most : number < 2 ^ (number.log2 + 1) := Nat.lt_log2_self
  rw [Nat.log2_eq_iff (Nat.mul_pos positive (by positivity)).ne', pow_add, add_right_comm, pow_add]
  exact ⟨Nat.mul_le_mul_right _ least, Nat.mul_lt_mul_of_pos_right most (by positivity)⟩

theorem round_half_even_one (number : Nat) : roundHalfEven number 1 = number := by
  have same : roundHalfEven (number * 1) 1 = number :=
    round_half_even_of_multiple number Nat.one_pos
  rwa [Nat.mul_one] at same

theorem rounded_of_short (short : number < 2 ^ 53) : roundedNat number = number := by
  rw [roundedNat, log_of_short short, pow_zero, round_half_even_one, Nat.mul_one]

theorem mantissa_least (full : 2 ^ 52 ≤ number) :
    2 ^ 52 ≤ roundHalfEven number (2 ^ (number.log2 - 52)) := by
  calc 2 ^ 52 = roundHalfEven (2 ^ 52 * 2 ^ (number.log2 - 52)) (2 ^ (number.log2 - 52)) :=
        (round_half_even_of_multiple _ (by positivity)).symm
    _ ≤ roundHalfEven number (2 ^ (number.log2 - 52)) :=
        round_half_even_mono (bits_of_full full).1

theorem mantissa_most (number : Nat) :
    roundHalfEven number (2 ^ (number.log2 - 52)) ≤ 2 ^ 53 := by
  rcases Nat.lt_or_ge number (2 ^ 53) with short | long
  · rw [log_of_short short, pow_zero, round_half_even_one]
    exact short.le
  · have full : 2 ^ 52 ≤ number := by omega
    calc roundHalfEven number (2 ^ (number.log2 - 52)) ≤
          roundHalfEven (2 ^ 53 * 2 ^ (number.log2 - 52)) (2 ^ (number.log2 - 52)) :=
          round_half_even_mono (bits_of_full full).2.le
      _ = 2 ^ 53 := round_half_even_of_multiple _ (by positivity)

/-- Trailing zeros do not matter once the mantissa is full. -/
theorem rounded_scaled (full : 2 ^ 52 ≤ number) (power : Nat) :
    roundedNat (number * 2 ^ power) = roundedNat number * 2 ^ power := by
  have some_bits : number ≠ 0 := by omega
  have enough : 52 ≤ number.log2 := (Nat.le_log2 some_bits).mpr full
  have bits : (number * 2 ^ power).log2 - 52 = number.log2 - 52 + power := by
    rw [log_scaled (by omega)]
    omega
  rw [roundedNat, roundedNat, bits, pow_add, round_half_even_scaled (by positivity), mul_assoc]

theorem rounded_mono (less : number ≤ greater) : roundedNat number ≤ roundedNat greater := by
  have bits : number.log2 ≤ greater.log2 := by
    rw [Nat.log2_eq_log_two, Nat.log2_eq_log_two]
    exact Nat.log_mono_right less
  rcases Nat.eq_or_lt_of_le (Nat.sub_le_sub_right bits 52) with same | fewer
  · rw [roundedNat, roundedNat, same]
    exact Nat.mul_le_mul_right _ (round_half_even_mono less)
  · -- with more bits than a mantissa takes the greater one begins above all shorter numbers
    have long : 2 ^ 53 ≤ greater := by
      by_contra short
      rw [log_of_short (not_le.mp short)] at fewer
      exact absurd fewer (Nat.not_lt_zero _)
    calc roundedNat number ≤ 2 ^ 53 * 2 ^ (number.log2 - 52) :=
          Nat.mul_le_mul_right _ (mantissa_most number)
      _ = 2 ^ 52 * 2 ^ (number.log2 - 52 + 1) := by ring
      _ ≤ 2 ^ 52 * 2 ^ (greater.log2 - 52) :=
          Nat.mul_le_mul_left _ (Nat.pow_le_pow_right (by decide) fewer)
      _ ≤ roundedNat greater := Nat.mul_le_mul_right _ (mantissa_least (by omega))

end RoundedNat

open Float.Model Float.Model.UnpackedFloat

/-- The nearest integer with at most 53 significant bits. -/
def roundedInt : Int → Int
  | .ofNat size => (roundedNat size : ℕ)
  | .negSucc size => -(roundedNat (size + 1) : ℕ)

section RoundedInt

variable {number greater : Int}

theorem rounded_int_mono (less : number ≤ greater) : roundedInt number ≤ roundedInt greater := by
  cases number with
  | ofNat size =>
      cases greater with
      | ofNat size' => exact Int.ofNat_le.mpr (rounded_mono (Int.ofNat_le.mp less))
      | negSucc size' =>
          have below : Int.ofNat size < 0 := less.trans_lt (Int.negSucc_lt_zero size')
          exact absurd below (Int.not_lt.mpr (Int.natCast_nonneg size))
  | negSucc size =>
      cases greater with
      | ofNat size' => simp only [roundedInt]; omega
      | negSucc size' =>
          have sizes : roundedNat (size' + 1) ≤ roundedNat (size + 1) := rounded_mono (by omega)
          simp only [roundedInt]
          omega

theorem rounded_int_of_short (short : number.natAbs < 2 ^ 53) : roundedInt number = number := by
  cases number with
  | ofNat size => exact congrArg Int.ofNat (rounded_of_short short)
  | negSucc size =>
      have same : roundedNat (size + 1) = size + 1 := rounded_of_short short
      rw [roundedInt, same]
      rfl

/-- An integer of at most 53 bits is rounded together with no other. -/
theorem eq_of_rounded_short (short : number.natAbs < 2 ^ 53)
    (same : roundedInt number = roundedInt greater) : number = greater := by
  rw [rounded_int_of_short short] at same
  rcases Nat.lt_or_ge greater.natAbs (2 ^ 53) with also | long
  · rw [same, rounded_int_of_short also]
  · have top : roundedInt (2 ^ 53) = 2 ^ 53 := by decide
    have bottom : roundedInt (-2 ^ 53) = -2 ^ 53 := by decide
    rcases (by omega : 2 ^ 53 ≤ greater ∨ greater ≤ -2 ^ 53) with above | below
    · have more := rounded_int_mono above
      omega
    · have less := rounded_int_mono below
      omega

/-- Rounded integers are ordered like the integers, if it is not two of them that became one. -/
theorem compare_rounded (apart : roundedInt number = roundedInt greater → number = greater) :
    compare (roundedInt number) (roundedInt greater) = compare number greater := by
  rcases lt_trichotomy number greater with less | rfl | more
  · have rounded := rounded_int_mono less.le
    have different : roundedInt number ≠ roundedInt greater := fun same => less.ne (apart same)
    rw [compare_lt_iff_lt.mpr less, compare_lt_iff_lt]
    exact rounded.lt_of_ne different
  · rw [compare_eq_iff_eq.mpr rfl, compare_eq_iff_eq.mpr rfl]
  · have rounded := rounded_int_mono more.le
    have different : roundedInt number ≠ roundedInt greater := fun same => more.ne' (apart same)
    rw [compare_gt_iff_gt.mpr more, compare_gt_iff_gt]
    exact rounded.lt_of_ne different.symm

end RoundedInt

section Shifting

variable {mantissa : Nat}

/-- After some shifts, the bit that was shifted out last decides together with whether one
before it was set. -/
theorem repeat_shift (mantissa shifts : Nat) :
    (shifts + 1).repeat ExtendedMantissa.shiftRightOne ⟨mantissa, false, false⟩ =
      ⟨mantissa / 2 ^ (shifts + 1), mantissa / 2 ^ shifts % 2 != 0,
        mantissa % 2 ^ shifts != 0⟩ := by
  induction shifts with
  | zero => simp [Nat.repeat, ExtendedMantissa.shiftRightOne, Nat.mod_one]
  | succ shifts earlier =>
      have sticky : (mantissa / 2 ^ shifts % 2 != 0 || mantissa % 2 ^ shifts != 0) =
          (mantissa % 2 ^ (shifts + 1) != 0) := by
        rw [Nat.mod_pow_succ, Bool.eq_iff_iff]
        simp
        tauto
      rw [Nat.repeat, earlier, ExtendedMantissa.shiftRightOne]
      dsimp only
      rw [sticky, Nat.div_div_eq_div_mul, ← pow_succ]

theorem rounded_mantissa_eq (mantissa : Nat) (round sticky : Bool) :
    (ExtendedMantissa.mk mantissa round sticky).roundedMantissa =
      if round then if sticky then mantissa + 1 else mantissa + mantissa % 2 else mantissa := by
  cases round <;> cases sticky <;> rfl

theorem rounded_shifts (mantissa shifts : Nat) :
    (shifts.repeat ExtendedMantissa.shiftRightOne ⟨mantissa, false, false⟩).roundedMantissa =
      roundHalfEven mantissa (2 ^ shifts) := by
  cases shifts with
  | zero =>
      rw [pow_zero, round_half_even_one]
      rfl
  | succ shifts =>
      have unit : 0 < 2 ^ shifts := by positivity
      have below := Nat.mod_lt mantissa unit
      rw [repeat_shift, roundHalfEven, Nat.mod_pow_succ, pow_succ]
      generalize mantissa / (2 ^ shifts * 2) = quotient
      generalize mantissa % 2 ^ shifts = sticky at below ⊢
      generalize 2 ^ shifts = half at below ⊢
      rw [rounded_mantissa_eq]
      rcases Nat.mod_two_eq_zero_or_one (mantissa / half) with clear | set
      · simp only [clear, bne_self_eq_false, Bool.false_eq_true, if_false]
        rw [if_pos (by omega)]
      · simp only [set, bne_iff_ne, ne_eq, one_ne_zero, not_false_eq_true, if_true, beq_iff_eq,
          Bool.and_eq_true]
        split_ifs <;> omega

theorem target_exponent (mantissa : Nat) (exponent : Int) :
    Format.binary64.targetExponent (totalExponent mantissa exponent) =
      max (mantissa.log2 + exponent - 52) (-1074) := by
  have least : Format.binary64.minExponent = -1074 := by decide
  have bits : Format.binary64.mantissaBits = 53 := rfl
  rw [Format.targetExponent, totalExponent, least, bits]
  omega

theorem shift_full {exponent : Int} (full : 2 ^ 52 ≤ mantissa) (placed : -1074 ≤ exponent) :
    shiftToTargetExponent .binary64 mantissa exponent .exact =
      ((mantissa.log2 - 52).repeat ExtendedMantissa.shiftRightOne ⟨mantissa, false, false⟩,
        exponent + (mantissa.log2 - 52 : ℕ)) := by
  have enough : 52 ≤ mantissa.log2 := (Nat.le_log2 (by omega)).mpr full
  have shifts : (Format.binary64.targetExponent (totalExponent mantissa exponent) -
      exponent).toNat = mantissa.log2 - 52 := by
    rw [target_exponent]
    omega
  rw [shiftToTargetExponent, shiftToExponent, shifts]
  rfl

/-- A full mantissa is rounded to a full one of 53 bits. -/
theorem round_full (sign : Sign) {exponent : Int} (full : 2 ^ 52 ≤ mantissa)
    (placed : -1074 ≤ exponent) :
    ∃ (rounded power : Nat) (positive : 0 < rounded),
      roundWithAccuracy .binary64 sign mantissa exponent .exact =
        .finite sign rounded (exponent + power) positive ∧
      2 ^ 52 ≤ rounded ∧ rounded < 2 ^ 53 ∧ rounded * 2 ^ power = roundedNat mantissa := by
  have least := mantissa_least full
  have most := mantissa_most mantissa
  unfold roundWithAccuracy
  rw [shift_full full placed]
  dsimp only
  rw [rounded_shifts, shift_full least (by omega), roundedNat]
  generalize roundHalfEven mantissa (2 ^ (mantissa.log2 - 52)) = rounded at least most ⊢
  generalize mantissa.log2 - 52 = shifts
  dsimp only
  rcases Nat.eq_or_lt_of_le most with rfl | short
  · -- the carry takes one bit more, which is clear
    have one_more : (2 ^ 53 : ℕ).log2 - 52 = 1 := by rw [Nat.log2_two_pow]
    refine ⟨2 ^ 52, shifts + 1, by decide, ?_, le_refl _, by decide, by ring⟩
    simp only [one_more]
    have halved : (Nat.repeat ExtendedMantissa.shiftRightOne 1 ⟨2 ^ 53, false, false⟩).mantissa =
        2 ^ 52 := by decide
    rw [dif_neg (by rw [halved]; decide), finite.injEq]
    exact ⟨rfl, halved, by push_cast; ring⟩
  · refine ⟨rounded, shifts, by omega, ?_, least, short, rfl⟩
    simp only [log_of_short short]
    have kept : (Nat.repeat ExtendedMantissa.shiftRightOne 0 ⟨rounded, false, false⟩).mantissa =
        rounded := rfl
    rw [dif_neg (by rw [kept]; omega), finite.injEq]
    exact ⟨rfl, kept, Int.add_zero _⟩

end Shifting

/-- An unpacked double with a full mantissa holds an integer. The sizes of both are compared
in units of `2 ^ (-52)`, the least that an integer needs for a full mantissa. -/
inductive Holds : Float.Model.UnpackedFloat → Int → Prop
  | zero (sign : Sign) : Holds (.zero sign) 0
  | finite {sign : Sign} {mantissa power size : Nat} (positive : 0 < mantissa)
      (full : 2 ^ 52 ≤ mantissa) (short : mantissa < 2 ^ 53) (bounded : power < 1024)
      (same : mantissa * 2 ^ power = size * 2 ^ 52) :
      Holds (.finite sign mantissa (power - 52) positive) (sign.apply size)

namespace Holds

variable {double other : Float.Model.UnpackedFloat} {number different : Int}

theorem neg (holds : Holds double number) : Holds double.neg (-number) := by
  cases holds with
  | zero sign => exact .zero (-sign)
  | @finite sign mantissa power size positive full short bounded same =>
      have negated : -sign.apply size = (-sign).apply size := by
        cases sign
        · exact Int.neg_neg _
        · rfl
      rw [negated]
      exact .finite positive full short bounded same

theorem unpack_pack (holds : Holds double number) :
    UnpackedFloat.unpack .binary64 (UnpackedFloat.pack .binary64 double) = double := by
  cases holds with
  | zero sign => exact unpack_packedZero
  | @finite sign mantissa power size positive full short bounded same =>
      have bits : mantissa.log2 = 52 := (Nat.log2_eq_iff positive.ne').mpr ⟨full, short⟩
      have biased : ((power : Int) - 52 + Format.binary64.exponentBias +
          Format.binary64.mantissaBitsWithoutImplicit).toNat = power + 1023 := by
        change ((power : Int) - 52 + (1023 : ℕ) + (52 : ℕ)).toNat = power + 1023
        omega
      have exponent_bits : (BitVec.ofNat 11 (power + 1023)).toNat = power + 1023 :=
        Nat.mod_eq_of_lt (by omega)
      have not_all : BitVec.ofNat 11 (power + 1023) ≠ -1#11 := by
        intro all
        rw [all] at exponent_bits
        change 2047 = _ at exponent_bits
        omega
      have not_none : BitVec.ofNat 11 (power + 1023) ≠ 0#11 := by
        intro none_set
        rw [none_set] at exponent_bits
        change 0 = _ at exponent_bits
        omega
      -- the leading bit is left out of the packed mantissa, and put back
      have mantissa_bits : (1#1 ++ BitVec.ofNat 52 mantissa).toNat = mantissa := by
        rw [BitVec.toNat_append, ← Nat.shiftLeft_add_eq_or_of_lt (BitVec.ofNat 52 mantissa).isLt,
          Nat.shiftLeft_eq, BitVec.toNat_ofNat, BitVec.toNat_ofNat]
        omega
      rw [UnpackedFloat.pack]
      simp only [bits, biased]
      have all_bits : 52 + 1 = Format.binary64.mantissaBits := rfl
      rw [if_neg (by omega), if_pos all_bits, UnpackedFloat.unpack]
      simp only [unpackMantissa_packComponents, unpackExponent_packComponents,
        unpackSign_packComponents, Sign.ofBitVec_toBitVec]
      rw [if_neg not_all, if_neg not_none, finite.injEq, exponent_bits]
      refine ⟨rfl, mantissa_bits, ?_⟩
      change ((power + 1023 : ℕ) : Int) - ((1023 : ℕ) + (52 : ℕ)) = power - 52
      omega

section Order

variable {mantissa mantissa' power power' size size' places limit : Nat}

theorem size_positive (positive : 0 < mantissa)
    (same : mantissa * 2 ^ power = size * 2 ^ places) : 0 < size := by
  have some_bits : 0 < mantissa * 2 ^ power := by positivity
  rw [same] at some_bits
  exact Nat.pos_of_mul_pos_right some_bits

/-- The bits of an integer bound the exponent. -/
theorem power_lt (full : 2 ^ 52 ≤ mantissa) (same : mantissa * 2 ^ power = size * 2 ^ 52)
    (bounded : size < 2 ^ limit) : power < limit := by
  have smaller : 2 ^ (power + 52) < 2 ^ (limit + 52) := by
    calc 2 ^ (power + 52) = 2 ^ 52 * 2 ^ power := by ring
      _ ≤ mantissa * 2 ^ power := Nat.mul_le_mul_right _ full
      _ = size * 2 ^ 52 := same
      _ < 2 ^ limit * 2 ^ 52 := Nat.mul_lt_mul_of_pos_right bounded (by positivity)
      _ = 2 ^ (limit + 52) := (pow_add 2 limit 52).symm
  exact Nat.lt_of_add_lt_add_right ((Nat.pow_lt_pow_iff_right (by decide)).mp smaller)

/-- With full mantissas the exponents decide first. -/
theorem size_lt (short : mantissa < 2 ^ 53) (full : 2 ^ 52 ≤ mantissa')
    (same : mantissa * 2 ^ power = size * 2 ^ 52) (same' : mantissa' * 2 ^ power' = size' * 2 ^ 52)
    (less : power < power') : size < size' := by
  have scaled : size * 2 ^ 52 < size' * 2 ^ 52 := by
    calc size * 2 ^ 52 = mantissa * 2 ^ power := same.symm
      _ < 2 ^ 53 * 2 ^ power := Nat.mul_lt_mul_of_pos_right short (by positivity)
      _ = 2 ^ 52 * 2 ^ (power + 1) := by ring
      _ ≤ 2 ^ 52 * 2 ^ power' := Nat.mul_le_mul_left _ (Nat.pow_le_pow_right (by decide) less)
      _ ≤ mantissa' * 2 ^ power' := Nat.mul_le_mul_right _ full
      _ = size' * 2 ^ 52 := same'
  exact Nat.lt_of_mul_lt_mul_right scaled

theorem size_compare (full : 2 ^ 52 ≤ mantissa) (short : mantissa < 2 ^ 53)
    (full' : 2 ^ 52 ≤ mantissa') (short' : mantissa' < 2 ^ 53)
    (same : mantissa * 2 ^ power = size * 2 ^ 52)
    (same' : mantissa' * 2 ^ power' = size' * 2 ^ 52) :
    (compare ((power : Int) - 52) (power' - 52)).then (compare mantissa mantissa') =
      compare (size : Int) size' := by
  rcases Nat.lt_trichotomy power power' with less | rfl | greater
  · have sizes := size_lt short full' same same' less
    have exponents : compare ((power : Int) - 52) (power' - 52) = .lt :=
      compare_lt_iff_lt.mpr (by omega)
    rw [exponents, Ordering.lt_then, eq_comm, compare_lt_iff_lt]
    omega
  · have unit : 0 < 2 ^ power := by positivity
    rw [compare_eq_iff_eq.mpr rfl, Ordering.eq_then]
    rcases Nat.lt_trichotomy mantissa mantissa' with below | rfl | above
    · have scaled := Nat.mul_lt_mul_of_pos_right below unit
      rw [same, same'] at scaled
      have sizes := Nat.lt_of_mul_lt_mul_right scaled
      rw [compare_lt_iff_lt.mpr below, compare_lt_iff_lt.mpr (by omega)]
    · rw [same] at same'
      have sizes := Nat.mul_right_cancel (by positivity) same'
      rw [compare_eq_iff_eq.mpr rfl, compare_eq_iff_eq.mpr (by omega)]
    · have scaled := Nat.mul_lt_mul_of_pos_right above unit
      rw [same, same'] at scaled
      have sizes := Nat.lt_of_mul_lt_mul_right scaled
      rw [compare_gt_iff_gt.mpr above, compare_gt_iff_gt.mpr (by omega)]
  · have sizes := size_lt short' full same' same greater
    have exponents : compare ((power : Int) - 52) (power' - 52) = .gt :=
      compare_gt_iff_gt.mpr (by omega)
    rw [exponents, Ordering.gt_then, eq_comm, compare_gt_iff_gt]
    omega

theorem compare_negated (number different : Int) :
    compare (-number) (-different) = (compare number different).swap := by
  rcases lt_trichotomy number different with less | rfl | greater
  · rw [compare_lt_iff_lt.mpr less, compare_gt_iff_gt.mpr (by omega)]
    rfl
  · rw [compare_eq_iff_eq.mpr rfl, compare_eq_iff_eq.mpr rfl]
    rfl
  · rw [compare_gt_iff_gt.mpr greater, compare_lt_iff_lt.mpr (by omega)]
    rfl

end Order

/-- Doubles that are integers are ordered like the integers. -/
theorem compare_eq (holds : Holds double number) (also : Holds other different) :
    double.compare other = some (compare number different) := by
  cases holds with
  | zero sign =>
      cases also with
      | zero sign' => rfl
      | @finite sign' mantissa power size positive full short bounded same =>
          have some_size := size_positive positive same
          cases sign' with
          | negative => exact congrArg some (compare_gt_iff_gt.mpr (by simpa [Sign.apply])).symm
          | positive => exact congrArg some (compare_lt_iff_lt.mpr (by simpa [Sign.apply])).symm
  | @finite sign mantissa power size positive full short bounded same =>
      have some_size := size_positive positive same
      cases also with
      | zero sign' =>
          cases sign with
          | negative => exact congrArg some (compare_lt_iff_lt.mpr (by simpa [Sign.apply])).symm
          | positive => exact congrArg some (compare_gt_iff_gt.mpr (by simpa [Sign.apply])).symm
      | @finite sign' mantissa' power' size' positive' full' short' bounded' same' =>
          have some_size' := size_positive positive' same'
          have sizes := size_compare full short full' short' same same'
          cases sign with
          | negative =>
              cases sign' with
              | negative =>
                  have swapped := congrArg Ordering.swap sizes
                  rw [← compare_negated] at swapped
                  exact congrArg some swapped
              | positive =>
                  have below : Sign.negative.apply size < Sign.positive.apply size' := by
                    simp only [Sign.apply]
                    omega
                  exact congrArg some (compare_lt_iff_lt.mpr below).symm
          | positive =>
              cases sign' with
              | negative =>
                  have above : Sign.negative.apply size' < Sign.positive.apply size := by
                    simp only [Sign.apply]
                    omega
                  exact congrArg some (compare_gt_iff_gt.mpr above).symm
              | positive => exact congrArg some sizes

/-- What a full mantissa with places behind the point is rounded to is an integer, if the
places of the rounded mantissa are clear. -/
theorem of_round (sign : Sign) {mantissa size places : Nat} (full : 2 ^ 52 ≤ mantissa)
    (placed : places ≤ 1074) (bounded : size < 2 ^ 128)
    (same : roundedNat mantissa = size * 2 ^ places) :
    Holds (roundWithAccuracy .binary64 sign mantissa (-(places : Int)) .exact)
      (sign.apply size) := by
  have above : -1074 ≤ -(places : Int) := by omega
  obtain ⟨rounded, power, positive, result, least, short, value⟩ := round_full sign full above
  rw [same] at value
  have some_size := size_positive positive value
  have enough : places < 53 + power := by
    have shorter : 2 ^ places < 2 ^ (53 + power) := by
      calc 2 ^ places ≤ size * 2 ^ places := Nat.le_mul_of_pos_left _ some_size
        _ = rounded * 2 ^ power := value.symm
        _ < 2 ^ 53 * 2 ^ power := Nat.mul_lt_mul_of_pos_right short (by positivity)
        _ = 2 ^ (53 + power) := (pow_add 2 53 power).symm
    exact (Nat.pow_lt_pow_iff_right (by decide)).mp shorter
  obtain ⟨integral, split⟩ : ∃ integral, integral + places = power + 52 :=
    ⟨_, Nat.sub_add_cancel (by omega)⟩
  have sizes : rounded * 2 ^ integral = size * 2 ^ 52 := by
    apply Nat.eq_of_mul_eq_mul_right (Nat.two_pow_pos places)
    calc rounded * 2 ^ integral * 2 ^ places = rounded * 2 ^ (integral + places) := by ring
      _ = rounded * 2 ^ power * 2 ^ 52 := by rw [split]; ring
      _ = size * 2 ^ 52 * 2 ^ places := by rw [value]; ring
  have limited : integral < 128 := power_lt least sizes bounded
  have exponent : -(places : Int) + power = integral - 52 := by omega
  rw [result]
  simp only [exponent]
  exact .finite positive least short (by omega) sizes

theorem of_short {size : Nat} (short : size < 2 ^ 53) :
    Holds (UnpackedFloat.ofNat .binary64 size) size := by
  rcases Nat.eq_zero_or_pos size with rfl | positive
  · exact .zero .positive
  · have bits : size.log2 < 53 := (Nat.log2_lt positive.ne').mpr short
    have least := Nat.log2_self_le positive.ne'
    have most : size < 2 ^ (size.log2 + 1) := Nat.lt_log2_self
    have above : compare (size : Int) 0 = .gt := compare_gt_iff_gt.mpr (by omega)
    have shifts : (0 - Format.binary64.targetExponent (totalExponent size 0)).toNat =
        52 - size.log2 := by
      rw [target_exponent]
      omega
    have full : 2 ^ 52 ≤ size * 2 ^ (52 - size.log2) := by
      calc 2 ^ 52 = 2 ^ size.log2 * 2 ^ (52 - size.log2) := by
            rw [← pow_add]
            congr 1
            omega
        _ ≤ size * 2 ^ (52 - size.log2) := Nat.mul_le_mul_right _ least
    have limited : size * 2 ^ (52 - size.log2) < 2 ^ 53 := by
      calc size * 2 ^ (52 - size.log2) < 2 ^ (size.log2 + 1) * 2 ^ (52 - size.log2) :=
            Nat.mul_lt_mul_of_pos_right most (by positivity)
        _ = 2 ^ 53 := by
            rw [← pow_add]
            congr 1
            omega
    have rounded := of_round .positive full (by omega) (by omega) (rounded_of_short limited)
    unfold UnpackedFloat.ofNat UnpackedFloat.ofInt UnpackedFloat.normalize
    rw [above]
    dsimp only
    rw [Int.toNat_natCast, UnpackedFloat.round, decreaseExponent, shifts, Nat.shiftLeft_eq,
      zero_sub]
    exact rounded

/-- An integer of at most 53 bits is the same after it is multiplied by one. -/
theorem mul_one (holds : Holds double number) (short : number.natAbs < 2 ^ 53) :
    Holds (UnpackedFloat.mul .binary64 double (.finite .positive (2 ^ 52) (-52) (by decide)))
      number := by
  cases holds with
  | zero sign => exact .zero _
  | @finite sign mantissa power size positive full limited bounded same =>
      have size_short : size < 2 ^ 53 := by
        cases sign <;> simpa [Sign.apply] using short
      have low : power < 53 := power_lt full same size_short
      obtain ⟨places, split⟩ : ∃ places, places + power = 104 :=
        ⟨_, Nat.sub_add_cancel (by omega)⟩
      have value : roundedNat (mantissa * 2 ^ 52) = size * 2 ^ places := by
        rw [rounded_scaled full, rounded_of_short limited]
        apply Nat.eq_of_mul_eq_mul_right (Nat.two_pow_pos power)
        calc mantissa * 2 ^ 52 * 2 ^ power = mantissa * 2 ^ power * 2 ^ 52 := by ring
          _ = size * 2 ^ (places + power) := by rw [same, split]; ring
          _ = size * 2 ^ places * 2 ^ power := by ring
      have exponent : (power : Int) - 52 + -52 = -(places : Int) := by omega
      have same_sign : sign * .positive = sign := by cases sign <;> rfl
      rw [UnpackedFloat.mul, exponent, same_sign]
      exact of_round sign (by omega) (by omega) (by omega) value

/-- A short number is made a double by way of a word, and multiplied by one. -/
theorem short_product {size : Nat} (short : size < 2 ^ 53) :
    (Float.ofNat size).toModel.unpack =
      UnpackedFloat.unpack .binary64 (UnpackedFloat.pack .binary64 (UnpackedFloat.mul .binary64
        (UnpackedFloat.unpack .binary64 (UnpackedFloat.pack .binary64
          (UnpackedFloat.ofNat .binary64 size)))
        (.finite .positive (2 ^ 52) (-52) (by decide)))) := by
  have word : size.toUInt64.toNat = size := Nat.mod_eq_of_lt (by omega)
  have one : (Float.ofBits 0x3FF0000000000000).toModel.unpack =
      .finite .positive (2 ^ 52) (-52) (by decide) := by
    rfl
  have product : Float.ofNat size = size.toUInt64.toFloat * Float.ofBits 0x3FF0000000000000 := by
    unfold Float.ofNat
    change Float.ofScientific size false 0 = _
    rw [Float.ofScientific, dif_pos ⟨short, by decide⟩]
    rfl
  have through_bits : (size.toUInt64.toFloat * Float.ofBits 0x3FF0000000000000).toModel.unpack =
      UnpackedFloat.unpack .binary64 (UnpackedFloat.pack .binary64 (UnpackedFloat.mul .binary64
        (UnpackedFloat.unpack .binary64 (UnpackedFloat.pack .binary64
          (UnpackedFloat.ofNat .binary64 size.toUInt64.toNat)))
        (Float.ofBits 0x3FF0000000000000).toModel.unpack)) := rfl
  rw [product, through_bits, word, one]

/-- A longer number is multiplied by a power of two and divided by it, and rounded then. -/
theorem long_product {size : Nat} (long : 2 ^ 53 ≤ size) :
    (Float.ofNat size).toModel.unpack =
      UnpackedFloat.unpack .binary64 (UnpackedFloat.pack .binary64
        (roundWithAccuracy .binary64 .positive (size * 2 ^ 53) (-(53 : ℕ)) .exact)) := by
  have product : Float.ofNat size = .ofModel (Float.Model.ofScientific size 0) := by
    unfold Float.ofNat
    change Float.ofScientific size false 0 = _
    rw [Float.ofScientific, dif_neg (by omega)]
    rfl
  have through_bits : (Float.ofModel (Float.Model.ofScientific size 0)).toModel.unpack =
      UnpackedFloat.unpack .binary64 (UnpackedFloat.pack .binary64
        (UnpackedFloat.ofScientific .binary64 size 0)) := rfl
  have bits : Format.binary64.mantissaBits = 53 := rfl
  have exponents : -((53 : ℕ) : Int) + 0 = -(53 : ℕ) := by omega
  rw [product, through_bits, UnpackedFloat.ofScientific, dif_neg (by omega),
    if_neg (by decide), if_neg (not_lt.mpr (Int.neg_nonpos_of_nonneg (by positivity))),
    if_pos le_rfl]
  simp only [bits, Nat.shiftLeft_eq, UnpackedFloat.mul, exponents, Int.toNat_zero, pow_zero,
    Nat.mul_one]
  rfl

theorem of_nat {size : Nat} (bounded : size < 2 ^ 64) :
    Holds (Float.ofNat size).toModel.unpack (roundedNat size : ℕ) := by
  rcases Nat.lt_or_ge size (2 ^ 53) with short | long
  · have factor := of_short short
    have kept := mul_one factor (by simpa using short)
    rw [short_product short, factor.unpack_pack, kept.unpack_pack, rounded_of_short short]
    exact kept
  · have full : 2 ^ 52 ≤ size := by omega
    have limited : roundedNat size < 2 ^ 128 := by
      calc roundedNat size ≤ 2 ^ 53 * 2 ^ (size.log2 - 52) :=
            Nat.mul_le_mul_right _ (mantissa_most size)
        _ ≤ 2 ^ 53 * size := Nat.mul_le_mul_left _ (by have := (bits_of_full full).1; omega)
        _ < 2 ^ 128 := by omega
    have rounded := of_round .positive (by omega) (by decide) limited (rounded_scaled full 53)
    rw [long_product long, rounded.unpack_pack]
    exact rounded

/-- An integer of 64 bits becomes the double that holds the nearest one. -/
theorem of_int {number : Int} (bounded : number.natAbs < 2 ^ 64) :
    Holds (Float.ofInt number).toModel.unpack (roundedInt number) := by
  cases number with
  | ofNat size => exact of_nat bounded
  | negSucc size =>
      have holds : Holds (Float.ofNat (size + 1)).toModel.unpack (roundedNat (size + 1) : ℕ) :=
        of_nat bounded
      have negated : (Float.ofInt (Int.negSucc size)).toModel.unpack =
          UnpackedFloat.unpack .binary64 (UnpackedFloat.pack .binary64
            (Float.ofNat (size + 1)).toModel.unpack.neg) := rfl
      rw [negated, holds.neg.unpack_pack]
      exact holds.neg

end Holds

section Comparing

variable {number other : Int}

theorem double_beq (bounded : number.natAbs < 2 ^ 64) (also : other.natAbs < 2 ^ 64) :
    (Float.ofInt number == Float.ofInt other) =
      (compare (roundedInt number) (roundedInt other) == .eq) := by
  change ((Float.ofInt number).toModel.unpack.compare (Float.ofInt other).toModel.unpack ==
    some .eq) = _
  rw [(Holds.of_int bounded).compare_eq (Holds.of_int also)]
  rfl

theorem double_lt_iff (bounded : number.natAbs < 2 ^ 64) (also : other.natAbs < 2 ^ 64) :
    Float.ofInt number < Float.ofInt other ↔ roundedInt number < roundedInt other := by
  change decide (((Float.ofInt number).toModel.unpack.compare (Float.ofInt other).toModel.unpack ==
    some .lt) = true) = true ↔ _
  rw [(Holds.of_int bounded).compare_eq (Holds.of_int also), decide_eq_true_iff, beq_iff_eq,
    Option.some_inj, compare_lt_iff_lt]

end Comparing

end Letterpress.Decimal
