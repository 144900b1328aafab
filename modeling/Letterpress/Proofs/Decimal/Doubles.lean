import Mathlib
import Letterpress.Proofs.Decimal.Shortest

/-!
The decimal that stands for a double is nearest to it, so that one rounding gives the double
back. Signs are the topmost bit, and a zero keeps its own.
-/

namespace Letterpress.Decimal

section Signs

open Float.Model Float.Model.UnpackedFloat

/-- Negating what is neither infinite nor undefined turns the sign bit. -/
theorem neg_packed (exponent : BitVec 11) (mantissa : BitVec 52) (finite : exponent ≠ -1#11) :
    (UnpackedFloat.unpack .binary64 (packComponents .binary64 .positive exponent mantissa)).neg =
      UnpackedFloat.unpack .binary64 (packComponents .binary64 .negative exponent mantissa) := by
  unfold UnpackedFloat.unpack
  simp only [unpackSign_packComponents, unpackExponent_packComponents,
    unpackMantissa_packComponents, Sign.ofBitVec_toBitVec]
  rw [if_neg finite, if_neg finite]
  split
  · split <;> rfl
  · rfl

theorem packed_of_bits {bits : BitVec 64} (sign : Sign) {exponent : BitVec 11}
    {mantissa : BitVec 52} (same : bits.toNat =
      sign.toBitVec.toNat * 2 ^ 63 + exponent.toNat * 2 ^ 52 + mantissa.toNat) :
    packComponents .binary64 sign exponent mantissa = bits := by
  apply BitVec.eq_of_toNat_eq
  simp only [packComponents, BitVec.toNat_append]
  rw [same, ← Nat.shiftLeft_add_eq_or_of_lt mantissa.isLt,
    ← Nat.shiftLeft_add_eq_or_of_lt exponent.isLt, Nat.shiftLeft_eq, Nat.shiftLeft_eq]
  ring

theorem components_of_size {size : Nat} (finite : size < infinityBits) :
    packComponents .binary64 .positive (.ofNat 11 (size / 2 ^ 52)) (.ofNat 52 size) =
        (UInt64.ofNat size).toBitVec ∧
      BitVec.ofNat 11 (size / 2 ^ 52) ≠ -1#11 := by
  have bound : infinityBits = 2047 * 2 ^ 52 := rfl
  have exponent_bits : (BitVec.ofNat 11 (size / 2 ^ 52)).toNat = size / 2 ^ 52 :=
    Nat.mod_eq_of_lt (by omega)
  have mantissa_bits : (BitVec.ofNat 52 size).toNat = size % 2 ^ 52 := rfl
  have size_bits : (UInt64.ofNat size).toBitVec.toNat = size := Nat.mod_eq_of_lt (by omega)
  constructor
  · apply packed_of_bits
    rw [exponent_bits, mantissa_bits, size_bits]
    change size = 0 * 2 ^ 63 + _ + _
    omega
  · intro full
    rw [full] at exponent_bits
    change 2047 = _ at exponent_bits
    omega

theorem bits_of_size {size : Nat} (finite : size < infinityBits) :
    (Float.ofBits (.ofNat size)).toBits = .ofNat size := by
  obtain ⟨positive, bounded⟩ := components_of_size finite
  apply UInt64.toBitVec_inj.mp
  change UnpackedFloat.pack .binary64
    (UnpackedFloat.unpack .binary64 (UInt64.ofNat size).toBitVec) = _
  rw [← positive, pack_unpack_of_valid ⟨?_⟩]
  intro full
  rw [unpackExponent_packComponents] at full
  exact absurd full bounded

theorem neg_of_bits {number : Float} {size : Nat} (finite : size < infinityBits)
    (bits : number.toBits.toNat = 2 ^ 63 + size) : -(Float.ofBits (.ofNat size)) = number := by
  obtain ⟨positive, bounded⟩ := components_of_size finite
  have bound : infinityBits = 2047 * 2 ^ 52 := rfl
  have exponent_bits : (BitVec.ofNat 11 (size / 2 ^ 52)).toNat = size / 2 ^ 52 :=
    Nat.mod_eq_of_lt (by omega)
  have mantissa_bits : (BitVec.ofNat 52 size).toNat = size % 2 ^ 52 := rfl
  have negative : packComponents .binary64 .negative (.ofNat 11 (size / 2 ^ 52)) (.ofNat 52 size) =
      number.toBits.toBitVec := by
    apply packed_of_bits
    rw [exponent_bits, mantissa_bits]
    change number.toBits.toNat = 1 * 2 ^ 63 + _ + _
    omega
  apply Float.toBits_inj.mp
  apply UInt64.toBitVec_inj.mp
  change UnpackedFloat.pack .binary64 (UnpackedFloat.unpack .binary64
    (Float.ofBits (.ofNat size)).toBits.toBitVec).neg = _
  rw [bits_of_size finite, ← positive, neg_packed _ _ bounded, negative]
  exact pack_unpack_of_valid number.toModel.valid

theorem with_sign_of_bits {number : Float} {negative : Bool} {size : Nat}
    (finite : size < infinityBits)
    (bits : number.toBits.toNat = negative.toNat * 2 ^ 63 + size) :
    withSign negative (Float.ofBits (.ofNat size)) = number := by
  cases negative with
  | true => exact neg_of_bits finite (by simpa using bits)
  | false =>
      have same : UInt64.ofNat size = number.toBits := by
        rw [show size = number.toBits.toNat by simpa using bits.symm, UInt64.ofNat_toNat]
      rw [same]
      exact number.ofBits_toBits

end Signs

/-- The parts of a finite double are those of its bits. -/
theorem of_float_bits {number : Float} {negative : Bool} {magnitude : Dyadic}
    (found : Dyadic.ofFloat? number = some (negative, magnitude)) :
    (magnitude = ⟨0, -1074⟩ ∨ magnitude.Canonical) ∧ magnitude.doubleBits < infinityBits ∧
      number.toBits.toNat = negative.toNat * 2 ^ 63 + magnitude.doubleBits := by
  have whole : number.toBits.toNat < 2 ^ 64 := number.toBits.toNat_lt
  simp only [Dyadic.ofFloat?] at found
  generalize number.toBits.toNat = bits at found whole ⊢
  have fraction : twoTo 52 = 2 ^ 52 := rfl
  have top : twoTo 63 = 2 ^ 63 := rfl
  have bound : infinityBits = 2047 * 2 ^ 52 := rfl
  have sign : (bits / 2 ^ 63 == 1).toNat = bits / 2 ^ 63 := by
    rcases (by omega : bits / 2 ^ 63 = 0 ∨ bits / 2 ^ 63 = 1) with clear | set
    · rw [clear]
      rfl
    · rw [set]
      rfl
  rw [fraction, top] at found
  simp only [beq_iff_eq] at found
  split at found
  · cases found
  · split at found
    · next least =>
        cases found
        have bits_here : Dyadic.doubleBits ⟨bits % 2 ^ 52, -1074⟩ = bits % 2 ^ 52 := by
          simp only [Dyadic.doubleBits, bound, fraction]
          omega
        rw [bits_here, sign]
        refine ⟨?_, by omega, by omega⟩
        rcases Nat.eq_zero_or_pos (bits % 2 ^ 52) with zero | positive
        · exact .inl (by rw [zero])
        · have bounded : bits % 2 ^ 52 < 2 ^ 53 := by omega
          exact .inr ⟨positive, bounded, Int.le_refl _, by norm_num, .inl rfl⟩
    · cases found
      have bits_here :
          Dyadic.doubleBits ⟨2 ^ 52 + bits % 2 ^ 52, (bits / 2 ^ 52 % 2048 : ℕ) - 1075⟩ =
            bits % 2 ^ 63 := by
        simp only [Dyadic.doubleBits, bound, fraction]
        omega
      rw [bits_here, sign]
      refine ⟨.inr ⟨?_, ?_, ?_, ?_, .inr (Nat.le_add_right _ _)⟩, by omega, by omega⟩
      · exact Nat.lt_of_lt_of_le (by decide) (Nat.le_add_right _ _)
      · change 2 ^ 52 + bits % 2 ^ 52 < 2 ^ 53
        omega
      · change -1074 ≤ ((bits / 2 ^ 52 % 2048 : ℕ) : Int) - 1075
        omega
      · change ((bits / 2 ^ 52 % 2048 : ℕ) : Int) - 1075 ≤ 971
        omega

theorem sign_of_size {size : Nat} {negative : Bool} {magnitude : Dyadic}
    (small : size ≤ infinityBits)
    (found : Dyadic.ofFloat? (Float.ofBits (.ofNat size)) = some (negative, magnitude)) :
    negative = false := by
  rcases Nat.lt_or_eq_of_le small with finite | full
  · obtain ⟨-, -, bits⟩ := of_float_bits found
    have bound : infinityBits = 2047 * 2 ^ 52 := rfl
    have kept : (UInt64.ofNat size).toNat = size := Nat.mod_eq_of_lt (by omega)
    rw [bits_of_size finite, kept] at bits
    cases negative with
    | false => rfl
    | true =>
        rw [Bool.toNat_true] at bits
        omega
  · rw [full] at found
    have undefined : Dyadic.ofFloat? (Float.ofBits (.ofNat infinityBits)) = none := by
      decide +kernel
    cases undefined.symm.trans found

theorem double_bits_most (number : Dyadic) : number.doubleBits ≤ infinityBits :=
  Nat.min_le_right _ _

/-- What a decimal without a sign is read as has none. -/
theorem to_double_unsigned {digits : Nat} {exponent : Int} {negative : Bool} {magnitude : Dyadic}
    (found : Dyadic.ofFloat? (toDouble ⟨false, digits, exponent⟩) = some (negative, magnitude)) :
    negative = false := by
  unfold toDouble roundWith nearestDouble withSign at found
  simp only [Bool.false_eq_true, if_false] at found
  split at found
  · exact sign_of_size (Nat.zero_le _) found
  · split at found
    · exact sign_of_size (Nat.le_refl _) found
    · split at found
      · exact sign_of_size (Nat.zero_le _) found
      · exact sign_of_size (double_bits_most _) found

/-- The decimal that stands for a finite double is zero, or found for a mantissa. -/
theorem decimal_of_float {number : Float} {tie : Tie} {decimal : Decimal}
    (written : ofFloat? tie number = some decimal) :
    ∃ negative magnitude, Dyadic.ofFloat? number = some (negative, magnitude) ∧
      (magnitude = ⟨0, -1074⟩ ∧ decimal = ⟨negative, 0, 0⟩ ∨
        magnitude.Canonical ∧ decimal = ⟨negative, (shortestPositive tie magnitude).1,
          (shortestPositive tie magnitude).2⟩) := by
  unfold ofFloat? at written
  split at written
  · cases written
  · next negative magnitude found =>
      have shape := (of_float_bits found).1
      refine ⟨negative, magnitude, found, ?_⟩
      split at written
      · next zero =>
          rw [beq_iff_eq] at zero
          exact .inl ⟨shape.resolve_right fun canonical => canonical.positive.ne' zero,
            (Option.some.inj written).symm⟩
      · next some_mantissa =>
          rw [beq_iff_eq] at some_mantissa
          exact .inr ⟨shape.resolve_left fun zero => some_mantissa (by rw [zero]),
            (Option.some.inj written).symm⟩

/-- The double nearest to the decimal that stands for a double is that double. -/
theorem decimal_of_float_reads_back {number : Float} {tie : Tie} {decimal : Decimal}
    (written : ofFloat? tie number = some decimal) : decimal.toDouble = number := by
  obtain ⟨negative, magnitude, found, ⟨rfl, rfl⟩ | ⟨canonical, rfl⟩⟩ := decimal_of_float written
  · obtain ⟨-, finite, bits⟩ := of_float_bits found
    have nothing : toDouble ⟨negative, 0, 0⟩ = withSign negative (Float.ofBits (.ofNat 0)) := rfl
    rw [nothing]
    exact with_sign_of_bits finite bits
  · obtain ⟨-, finite, bits⟩ := of_float_bits found
    have attracts : magnitude.Attracts (Decimal.mk negative (shortestPositive tie magnitude).1
        (shortestPositive tie magnitude).2).size := Dyadic.shortest_attracted canonical tie
    rw [to_double_attracted canonical attracts]
    exact with_sign_of_bits finite bits

end Letterpress.Decimal
