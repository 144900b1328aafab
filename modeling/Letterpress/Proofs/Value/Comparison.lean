import Letterpress.Value.Operators
import Letterpress.Proofs.Decimal.Integers

/-!
Comparisons of integers. They go through doubles, and so they are comparisons of the integers
after each is rounded to 53 significant bits. That never turns the order round, and it is the
order of the integers themselves unless two of them are rounded to one. Two integers that lie
beyond 53 bits, side by side, can be: then they count as equal.
-/

namespace Letterpress

open Decimal

/-- What a comparison answers where its operands are in a given order. Sums and differences
have no such answer. -/
def BinaryOperator.holds? : BinaryOperator → Ordering → Option Bool
  | .eq, ordering => some (ordering == .eq)
  | .ne, ordering => some (ordering != .eq)
  | .lt, ordering => some (ordering == .lt)
  | .le, ordering => some (ordering != .gt)
  | .gt, ordering => some (ordering == .gt)
  | .ge, ordering => some (ordering != .lt)
  | .add, _ => none
  | .sub, _ => none

namespace Value

variable {a b : Int64} {operator : BinaryOperator} {answer : Bool}

theorem word_bounded (word : Int64) : word.toInt.natAbs < 2 ^ 64 := by
  have least := word.le_toInt
  have most := word.toInt_lt
  omega

theorem equals_ints (a b : Int64) :
    equals (.int a) (.int b) = (compare (roundedInt a.toInt) (roundedInt b.toInt) == .eq) :=
  double_beq (word_bounded a) (word_bounded b)

theorem compare_ints (a b : Int64) :
    compare? (.int a) (.int b) = some (compare (roundedInt a.toInt) (roundedInt b.toInt)) := by
  change (if Float.ofInt a.toInt < Float.ofInt b.toInt then some Ordering.lt
    else if Float.ofInt a.toInt == Float.ofInt b.toInt then some .eq
    else if Float.ofInt b.toInt < Float.ofInt a.toInt then some .gt else none) = _
  simp only [double_lt_iff (word_bounded a) (word_bounded b), double_lt_iff (word_bounded b)
    (word_bounded a), double_beq (word_bounded a) (word_bounded b)]
  rcases lt_trichotomy (roundedInt a.toInt) (roundedInt b.toInt) with less | same | greater
  · rw [if_pos less, compare_lt_iff_lt.mpr less]
  · rw [if_neg same.not_lt, compare_eq_iff_eq.mpr same]
    rfl
  · rw [if_neg greater.not_gt, if_pos greater, compare_gt_iff_gt.mpr greater]
    rfl

/-- A comparison of integers answers what holds of the rounded integers. -/
theorem apply_rounded
    (holds : operator.holds? (compare (roundedInt a.toInt) (roundedInt b.toInt)) = some answer) :
    applyBinary operator (.int a) (.int b) = .ok (.bool answer) := by
  generalize ordered : compare (roundedInt a.toInt) (roundedInt b.toInt) = ordering at holds
  have equality := equals_ints a b
  have order := compare_ints a b
  rw [ordered] at equality order
  cases operator <;> simp only [applyBinary, equality, order] <;> cases holds <;>
    cases ordering <;> rfl

/-- All comparisons of integers are comparisons of the rounded integers, so that of any two
exactly one of less, equal and greater holds. Rounding never turns the order round. What is
answered is right for the integers themselves wherever one of them has at most 53 bits, and
wherever they are not rounded to the same integer. -/
theorem integers_compared_rounded (a b : Int64) :
    (∀ operator answer,
        BinaryOperator.holds? operator (compare (roundedInt a.toInt) (roundedInt b.toInt)) =
          some answer →
        applyBinary operator (.int a) (.int b) = .ok (.bool answer)) ∧
      (a.toInt ≤ b.toInt → roundedInt a.toInt ≤ roundedInt b.toInt) ∧
      (a.toInt.natAbs < 2 ^ 53 ∨ b.toInt.natAbs < 2 ^ 53 ∨
          roundedInt a.toInt ≠ roundedInt b.toInt →
        ∀ operator answer,
          BinaryOperator.holds? operator (compare a.toInt b.toInt) = some answer →
          applyBinary operator (.int a) (.int b) = .ok (.bool answer)) := by
  refine ⟨fun _ _ => apply_rounded, rounded_int_mono, ?_⟩
  intro told operator answer holds
  have apart : roundedInt a.toInt = roundedInt b.toInt → a.toInt = b.toInt := by
    intro same
    rcases told with short | short | different
    · exact eq_of_rounded_short short same
    · exact (eq_of_rounded_short short same.symm).symm
    · exact absurd same different
  rw [← compare_rounded apart] at holds
  exact apply_rounded holds

/-- Numbers of 61 bits that differ in the lowest bit of the mantissa are told apart. -/
theorem large_integers_apart :
    applyBinary .lt (.int 1152921504606846976) (.int 1152921504606847232) = .ok (.bool true) :=
  (integers_compared_rounded 1152921504606846976 1152921504606847232).2.2
    (.inr (.inr (by decide))) .lt true (by decide)

/-- The first integer that a double cannot hold counts as equal to the one before. -/
theorem neighbours_count_as_equal :
    (9007199254740992 : Int64).toInt < (9007199254740993 : Int64).toInt ∧
      applyBinary .eq (.int 9007199254740992) (.int 9007199254740993) = .ok (.bool true) ∧
      applyBinary .lt (.int 9007199254740992) (.int 9007199254740993) = .ok (.bool false) :=
  ⟨by decide, apply_rounded (by decide), apply_rounded (by decide)⟩

end Value

end Letterpress
