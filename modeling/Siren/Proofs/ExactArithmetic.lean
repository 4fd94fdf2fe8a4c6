import Mathlib.Algebra.Group.Nat.Defs
import Mathlib.Algebra.Ring.Int.Defs
import Siren.Value.Operators

/-!
# Exact arithmetic

Sums, differences, products, quotients and negatives of 64-bit integers are those of the
integers they stand for, or fail when these do not fit into 64 bits.

Whether a result fits is tested with operations that wrap around.  The tests for sums and
differences move a bound by the second operand, towards the other bound, where nothing
wraps.  The test for products divides the wrapped product again: it differs from the exact
one by a multiple of `2 ^ 64`, which no divisor can hide, because a division leaves less than
its divisor.
-/

namespace Siren
namespace Integer

/-- Whether an integer fits into 64 bits. -/
def Fits (value : Int) : Prop :=
  -2 ^ 63 ≤ value ∧ value ≤ 2 ^ 63 - 1

instance (value : Int) : Decidable (Fits value) :=
  inferInstanceAs (Decidable (_ ∧ _))

/-- An integer that fits; any other is an overflow. -/
def exactly (value : Int) : Except RuntimeError Int64 :=
  if Fits value then .ok (.ofInt value) else .error .integerOverflow

theorem fits_toInt (value : Int64) : Fits value.toInt := by
  have lower := value.le_toInt
  have upper := value.toInt_lt
  unfold Fits
  omega

theorem toInt_ne_zero {word : Int64} (nonzero : word ≠ 0) : word.toInt ≠ 0 := by
  rwa [ne_eq, ← Int64.toInt_zero, Int64.toInt_inj]

/-- The word that stands for an integer is the exact result. -/
theorem exactly_eq_ok
    {value : Int}
    {word : Int64}
    (equal : word.toInt = value) :
    exactly value = .ok word := by
  subst equal
  rw [exactly, if_pos (fits_toInt word), Int64.ofInt_toInt]

theorem exactly_eq_error {value : Int} (excess : ¬Fits value) :
    exactly value = .error .integerOverflow :=
  if_neg excess

/-- Wrapping around keeps what fits. -/
theorem bmod_of_fits {value : Int} (fits : Fits value) : value.bmod (2 ^ 64) = value := by
  unfold Fits at fits
  apply Int.bmod_eq_of_le <;> omega

/-! ## Sums and differences -/

section Sums

variable {left right : Int64}

theorem toInt_add_of_fits (fits : Fits (left.toInt + right.toInt)) :
    (left + right).toInt = left.toInt + right.toInt := by
  rw [Int64.toInt_add, bmod_of_fits fits]

theorem toInt_sub_of_fits (fits : Fits (left.toInt - right.toInt)) :
    (left - right).toInt = left.toInt - right.toInt := by
  rw [Int64.toInt_sub, bmod_of_fits fits]

/-- The bounds moved by a positive operand, and what lies beyond them. -/
theorem moved_bounds_of_pos (positive : 0 < right) :
    (Int64.maxValue - right).toInt = 2 ^ 63 - 1 - right.toInt ∧
    (Int64.minValue + right).toInt = -2 ^ 63 + right.toInt ∧
    (Int64.maxValue - right < left ↔ ¬Fits (left.toInt + right.toInt)) ∧
    (left < Int64.minValue + right ↔ ¬Fits (left.toInt - right.toInt)) := by
  rw [Int64.lt_iff_toInt_lt, Int64.toInt_zero] at positive
  have bounds := fits_toInt left
  have bounds' := fits_toInt right
  unfold Fits at bounds bounds'
  have upper : (Int64.maxValue - right).toInt = 2 ^ 63 - 1 - right.toInt := by
    apply toInt_sub_of_fits
    rw [Int64.toInt_maxValue]
    unfold Fits
    omega
  have lower : (Int64.minValue + right).toInt = -2 ^ 63 + right.toInt := by
    apply toInt_add_of_fits
    rw [Int64.toInt_minValue]
    unfold Fits
    omega
  rw [Int64.lt_iff_toInt_lt, Int64.lt_iff_toInt_lt, upper, lower]
  unfold Fits
  omega

/-- The bounds moved by a negative operand, and what lies beyond them. -/
theorem moved_bounds_of_neg (negative : right < 0) :
    (Int64.minValue - right).toInt = -2 ^ 63 - right.toInt ∧
    (Int64.maxValue + right).toInt = 2 ^ 63 - 1 + right.toInt ∧
    (left < Int64.minValue - right ↔ ¬Fits (left.toInt + right.toInt)) ∧
    (Int64.maxValue + right < left ↔ ¬Fits (left.toInt - right.toInt)) := by
  rw [Int64.lt_iff_toInt_lt, Int64.toInt_zero] at negative
  have bounds := fits_toInt left
  have bounds' := fits_toInt right
  unfold Fits at bounds bounds'
  have lower : (Int64.minValue - right).toInt = -2 ^ 63 - right.toInt := by
    apply toInt_sub_of_fits
    rw [Int64.toInt_minValue]
    unfold Fits
    omega
  have upper : (Int64.maxValue + right).toInt = 2 ^ 63 - 1 + right.toInt := by
    apply toInt_add_of_fits
    rw [Int64.toInt_maxValue]
    unfold Fits
    omega
  rw [Int64.lt_iff_toInt_lt, Int64.lt_iff_toInt_lt, upper, lower]
  unfold Fits
  omega

end Sums

/-- A word is positive, negative or zero. -/
theorem sign_cases (word : Int64) : 0 < word ∨ word < 0 ∨ word = 0 := by
  rw [Int64.lt_iff_toInt_lt, Int64.lt_iff_toInt_lt, ← Int64.toInt_inj, Int64.toInt_zero]
  omega

/-- The test for sums is whether the sum fits. -/
theorem add_test_iff (left right : Int64) :
    ((0 < right && Int64.maxValue - right < left) ||
      (right < 0 && left < Int64.minValue - right)) = true ↔
        ¬Fits (left.toInt + right.toInt) := by
  simp only [Bool.or_eq_true, Bool.and_eq_true, decide_eq_true_eq]
  rcases sign_cases right with positive | negative | rfl
  · have other : ¬right < 0 := Int64.lt_asymm positive
    simp only [positive, other, (moved_bounds_of_pos positive).2.2.1, true_and, false_and,
      or_false]
  · have other : ¬0 < right := Int64.lt_asymm negative
    simp only [negative, other, (moved_bounds_of_neg negative).2.2.1, true_and, false_and,
      false_or]
  · simpa using fits_toInt left

/-- The test for differences is whether the difference fits. -/
theorem subtract_test_iff (left right : Int64) :
    ((right < 0 && Int64.maxValue + right < left) ||
      (0 < right && left < Int64.minValue + right)) = true ↔
        ¬Fits (left.toInt - right.toInt) := by
  simp only [Bool.or_eq_true, Bool.and_eq_true, decide_eq_true_eq]
  rcases sign_cases right with positive | negative | rfl
  · have other : ¬right < 0 := Int64.lt_asymm positive
    simp only [positive, other, (moved_bounds_of_pos positive).2.2.2, true_and, false_and,
      false_or]
  · have other : ¬0 < right := Int64.lt_asymm negative
    simp only [negative, other, (moved_bounds_of_neg negative).2.2.2, true_and, false_and,
      or_false]
  · simpa using fits_toInt left

theorem add_eq (left right : Int64) : add left right = exactly (left.toInt + right.toInt) := by
  unfold add
  by_cases fits : Fits (left.toInt + right.toInt)
  · rw [if_neg fun test => (add_test_iff left right).mp test fits]
    exact (exactly_eq_ok (toInt_add_of_fits fits)).symm
  · rw [if_pos ((add_test_iff left right).mpr fits), exactly_eq_error fits]

theorem subtract_eq (left right : Int64) :
    subtract left right = exactly (left.toInt - right.toInt) := by
  unfold subtract
  by_cases fits : Fits (left.toInt - right.toInt)
  · rw [if_neg fun test => (subtract_test_iff left right).mp test fits]
    exact (exactly_eq_ok (toInt_sub_of_fits fits)).symm
  · rw [if_pos ((subtract_test_iff left right).mpr fits), exactly_eq_error fits]

/-! ## Quotients and negatives -/

/-- The quotient of the least word by minus one does not fit. -/
theorem not_fits_minValue_tdiv : ¬Fits (Int64.minValue.toInt.tdiv (-1 : Int64).toInt) := by
  decide

/-- Only the quotient of the least word by minus one wraps around. -/
theorem toInt_div_of_ne
    {left right : Int64}
    (inside : ¬(left = Int64.minValue ∧ right = -1)) :
    (left / right).toInt = left.toInt.tdiv right.toInt := by
  by_cases least : left = Int64.minValue
  · apply Int64.toInt_div_of_ne_right
    intro equal
    exact inside ⟨least, equal⟩
  · exact Int64.toInt_div_of_ne_left _ _ least

theorem divide_eq (left right : Int64) :
    divide left right =
      if right.toInt = 0 then .error .divisionByZero
      else exactly (left.toInt.tdiv right.toInt) := by
  unfold divide
  by_cases zero : right = 0
  · subst zero
    rfl
  · rw [if_neg zero, if_neg (toInt_ne_zero zero)]
    by_cases corner : left = Int64.minValue ∧ right = -1
    · obtain ⟨rfl, rfl⟩ := corner
      rw [exactly_eq_error not_fits_minValue_tdiv]
      rfl
    · rw [if_neg (by simpa using corner)]
      exact (exactly_eq_ok (toInt_div_of_ne corner)).symm

theorem negate_eq (value : Int64) : negate value = exactly (-value.toInt) := by
  unfold negate
  by_cases least : value = Int64.minValue
  · subst least
    rw [exactly_eq_error (by decide)]
    rfl
  · rw [if_neg least]
    have bounds := fits_toInt value
    have inside : value.toInt ≠ Int64.minValue.toInt := mt Int64.toInt_inj.mp least
    rw [Int64.toInt_minValue] at inside
    have fits : Fits (-value.toInt) := by
      unfold Fits at bounds ⊢
      omega
    refine (exactly_eq_ok ?_).symm
    rw [Int64.toInt_neg, bmod_of_fits fits]

/-! ## Products -/

/-- The products that are an overflow without being divided again: one factor is minus one and
the other the least word. -/
def Corner (left right : Int64) : Prop :=
  left = -1 ∧ right = Int64.minValue ∨ right = -1 ∧ left = Int64.minValue

section Products

variable {left right : Int64}

theorem Corner.not_fits (corner : Corner left right) : ¬Fits (left.toInt * right.toInt) := by
  rcases corner with ⟨rfl, rfl⟩ | ⟨rfl, rfl⟩ <;> decide

/-- Outside of the corners the wrapped product is divided without wrapping around. -/
theorem toInt_mul_div (inside : ¬Corner left right) :
    (left * right / right).toInt = (left * right).toInt.tdiv right.toInt := by
  apply toInt_div_of_ne
  rintro ⟨product, rfl⟩
  -- The wrapped product by minus one is the least word only for the least word itself.
  apply inside
  refine .inr ⟨rfl, ?_⟩
  have least : -Int64.minValue = Int64.minValue := by decide
  rwa [Int64.mul_neg, Int64.mul_one, ← least, Int64.neg_inj] at product

/-- The wrapped product gives the first factor again exactly when nothing was lost. -/
theorem tdiv_bmod_eq_iff
    {x y : Int}
    (nonzero : y ≠ 0)
    (small : Fits y) :
    ((x * y).bmod (2 ^ 64)).tdiv y = x ↔ (x * y).bmod (2 ^ 64) = x * y := by
  constructor
  · intro quotient
    have turns := Int.bmod_eq_self_sub_mul_bdiv (x * y) (2 ^ 64)
    have split := Int.mul_tdiv_add_tmod ((x * y).bmod (2 ^ 64)) y
    rw [quotient, Int.mul_comm y x] at split
    have remainder : (((x * y).bmod (2 ^ 64)).tmod y).natAbs < y.natAbs := by
      rw [Int.natAbs_tmod]
      exact Nat.mod_lt _ (Int.natAbs_pos.mpr nonzero)
    unfold Fits at small
    omega
  · intro kept
    rw [kept]
    exact Int.mul_tdiv_cancel x nonzero

/-- Outside of the corners, dividing the wrapped product tells whether the product fits. -/
theorem mul_div_eq_iff
    (nonzero : right ≠ 0)
    (inside : ¬Corner left right) :
    left * right / right = left ↔ Fits (left.toInt * right.toInt) := by
  rw [← Int64.toInt_inj, toInt_mul_div inside, Int64.toInt_mul,
    tdiv_bmod_eq_iff (toInt_ne_zero nonzero) (fits_toInt right)]
  constructor
  · intro kept
    rw [← kept, ← Int64.toInt_mul]
    exact fits_toInt _
  · exact bmod_of_fits

end Products

theorem multiply_eq (left right : Int64) :
    multiply left right = exactly (left.toInt * right.toInt) := by
  unfold multiply
  by_cases zero : left = 0 ∨ right = 0
  · rw [if_pos (by simpa using zero)]
    refine (exactly_eq_ok ?_).symm
    rcases zero with rfl | rfl <;> simp
  · obtain ⟨_, nonzero⟩ := not_or.mp zero
    rw [if_neg (by simpa using zero)]
    by_cases corner : Corner left right
    · rw [if_pos (by simpa [Corner] using corner), exactly_eq_error corner.not_fits]
    · rw [if_neg (by simpa [Corner] using corner)]
      by_cases fits : Fits (left.toInt * right.toInt)
      · rw [if_neg (not_not_intro ((mul_div_eq_iff nonzero corner).mpr fits))]
        refine (exactly_eq_ok ?_).symm
        rw [Int64.toInt_mul, bmod_of_fits fits]
      · rw [if_pos (mt (mul_div_eq_iff nonzero corner).mp fits), exactly_eq_error fits]

end Integer

/-! ## Operators -/

/-- The value of an integer that fits; any other is an overflow. -/
def Value.exactly (value : Int) : Except Fault Value :=
  if Integer.Fits value then .ok (.int (.ofInt value))
  else .error (.runtime .integerOverflow)

theorem Value.exactly_eq (value : Int) :
    ((Integer.exactly value).mapError Fault.runtime).map Value.int = Value.exactly value := by
  unfold Integer.exactly Value.exactly
  split <;> rfl

/-- An arithmetic operator calculates with the integers in its operands. -/
theorem BinaryOp.apply_int
    {op : BinaryOp}
    (calculates : op.isComparison = false)
    (left right : Int64) :
    op.apply (.int left) (.int right) = (op.applyIntegers left right).map .int := by
  rw [BinaryOp.apply, if_neg (by simp [calculates])]
  change (op.applyIntegers left right >>= fun value => pure (Value.int value)) = _
  cases op.applyIntegers left right <;> rfl

/-- The minus sign calculates with the integer in its operand. -/
theorem UnaryOp.apply_negate_int (value : Int64) :
    UnaryOp.negate.apply (.int value) =
      ((Integer.negate value).mapError Fault.runtime).map .int := by
  have given : (Value.int value).asInt >>= Integer.negate = Integer.negate value := rfl
  rw [UnaryOp.apply, given]
  cases Integer.negate value <;> rfl

/-- An integer that is not negative has its sign changed without an overflow. -/
theorem UnaryOp.apply_negate_of_natural
    {value : Int64}
    (natural : 0 ≤ value.toInt) :
    UnaryOp.negate.apply (.int value) = .ok (.int (-value)) := by
  have above : value ≠ Int64.minValue := by
    rintro rfl
    exact absurd natural (by decide)
  rw [UnaryOp.apply_negate_int, Integer.negate, if_neg above]
  rfl

/-- Integer arithmetic is exact or fails.  Sums, differences and products are those of the
integers that the operands stand for, if these fit, and else an overflow.  So are quotients,
without their fraction, unless the divisor is zero, and negatives.  The tests do not wrap
around and do not divide by zero.  A bound moved by an operand is where it belongs, and the
other operand lies beyond it exactly when the result does not fit.  Where a wrapped product is
divided again, the divisor is not zero, the quotient is exact, and it differs from the first
factor exactly when the product does not fit.  The two corners do not fit either. -/
theorem arithmetic_is_exact_or_fails (left right : Int64) :
    (BinaryOp.add.apply (.int left) (.int right) = Value.exactly (left.toInt + right.toInt) ∧
      BinaryOp.subtract.apply (.int left) (.int right) = Value.exactly (left.toInt - right.toInt) ∧
      BinaryOp.multiply.apply (.int left) (.int right) = Value.exactly (left.toInt * right.toInt) ∧
      BinaryOp.divide.apply (.int left) (.int right) =
        (if right.toInt = 0 then .error (.runtime .divisionByZero)
          else Value.exactly (left.toInt.tdiv right.toInt)) ∧
      UnaryOp.negate.apply (.int left) = Value.exactly (-left.toInt)) ∧
    (0 < right →
      (Int64.maxValue - right).toInt = 2 ^ 63 - 1 - right.toInt ∧
      (Int64.minValue + right).toInt = -2 ^ 63 + right.toInt ∧
      (Int64.maxValue - right < left ↔ ¬Integer.Fits (left.toInt + right.toInt)) ∧
      (left < Int64.minValue + right ↔ ¬Integer.Fits (left.toInt - right.toInt))) ∧
    (right < 0 →
      (Int64.minValue - right).toInt = -2 ^ 63 - right.toInt ∧
      (Int64.maxValue + right).toInt = 2 ^ 63 - 1 + right.toInt ∧
      (left < Int64.minValue - right ↔ ¬Integer.Fits (left.toInt + right.toInt)) ∧
      (Int64.maxValue + right < left ↔ ¬Integer.Fits (left.toInt - right.toInt))) ∧
    (Integer.Corner left right → ¬Integer.Fits (left.toInt * right.toInt)) ∧
    (right ≠ 0 → ¬Integer.Corner left right →
      right.toInt ≠ 0 ∧
      (left * right / right).toInt = (left * right).toInt.tdiv right.toInt ∧
      (left * right / right ≠ left ↔ ¬Integer.Fits (left.toInt * right.toInt))) := by
  refine ⟨⟨?_, ?_, ?_, ?_, ?_⟩, Integer.moved_bounds_of_pos, Integer.moved_bounds_of_neg,
    Integer.Corner.not_fits, ?_⟩
  · rw [BinaryOp.apply_int rfl, BinaryOp.applyIntegers, Integer.add_eq, Value.exactly_eq]
  · rw [BinaryOp.apply_int rfl, BinaryOp.applyIntegers, Integer.subtract_eq, Value.exactly_eq]
  · rw [BinaryOp.apply_int rfl, BinaryOp.applyIntegers, Integer.multiply_eq, Value.exactly_eq]
  · rw [BinaryOp.apply_int rfl, BinaryOp.applyIntegers, Integer.divide_eq]
    split
    · rfl
    · rw [Value.exactly_eq]
  · rw [UnaryOp.apply_negate_int, Integer.negate_eq, Value.exactly_eq]
  · intro nonzero inside
    exact ⟨Integer.toInt_ne_zero nonzero, Integer.toInt_mul_div inside,
      not_congr (Integer.mul_div_eq_iff nonzero inside)⟩

/-- The least word times three wraps around to itself, and a third of that is not the least
word. -/
theorem arithmetic_is_exact_or_fails_at_bounds :
    (0 : Int64) < 3 ∧ (Int64.maxValue - 3).toInt = 2 ^ 63 - 4 ∧
    (-3 : Int64) < 0 ∧ (Int64.minValue - -3).toInt = -2 ^ 63 + 3 ∧
    Integer.Corner (-1) Int64.minValue ∧ ¬Integer.Fits ((-1 : Int64).toInt * Int64.minValue.toInt) ∧
    Int64.minValue * 3 = Int64.minValue ∧ Int64.minValue * 3 / 3 ≠ Int64.minValue ∧
    BinaryOp.multiply.apply (.int Int64.minValue) (.int 3) =
      .error (.runtime .integerOverflow) := by
  have positive : (0 : Int64) < 3 := by decide
  have negative : (-3 : Int64) < 0 := by decide
  have corner : Integer.Corner (-1) Int64.minValue := .inl ⟨rfl, rfl⟩
  have inside : ¬Integer.Corner Int64.minValue 3 := by
    unfold Integer.Corner
    decide
  have beyond : ¬Integer.Fits (Int64.minValue.toInt * (3 : Int64).toInt) := by decide
  obtain ⟨results, above, -, -, product⟩ := arithmetic_is_exact_or_fails Int64.minValue 3
  refine ⟨positive, (above positive).1, negative, ?_, corner, ?_, by decide, ?_, ?_⟩
  · exact ((arithmetic_is_exact_or_fails 0 (-3)).2.2.1 negative).1
  · exact (arithmetic_is_exact_or_fails (-1) Int64.minValue).2.2.2.1 corner
  · exact (product (by decide) inside).2.2.mpr beyond
  · rw [results.2.2.1, Value.exactly, if_neg beyond]

end Siren
