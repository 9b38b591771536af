import Mathlib.Data.Rat.Floor
import NodeGraph.Proofs.Shortest

/-!
# The whole number that a number is brought to

A finite number stands for a rational number, told by its sign, its exponent and its fraction
(`Binary64.value`). The model never computes with it: it holds the magnitude as a whole multiple of
the smallest positive number, and the two are the same up to this unit (`Binary64.abs_value`).

Truncating and rounding bring a number to a signed integer of 64 bits. `truncate_eq` and `round_eq`
say that they round the rational number, toward zero and to the nearest, and then stop at the ends
of the range; an infinity is beyond an end, and a NaN counts as zero.
-/

namespace NodeGraph

/-! ### Roundings of rational numbers -/

/-- A rounding of magnitudes, extended to all rational numbers by keeping the sign. -/
def keepSign (rounding : ℚ → ℤ) (q : ℚ) : ℤ := if q < 0 then -rounding |q| else rounding |q|

/-- A rational number with its fraction cut off. -/
def towardZero : ℚ → ℤ := keepSign fun q => ⌊q⌋

/-- The whole number nearest to a rational number; a half goes away from zero. -/
def halfAway : ℚ → ℤ := keepSign fun q => ⌊q + 1 / 2⌋

namespace Binary64

/-! ### Values -/

/-- The magnitude of a finite number: a significand from one up to two, or below one when the
exponent is the smallest, times a power of two. -/
def magnitude (v : Binary64) : ℚ :=
  if v.exponent = 0 then v.fraction / 2 ^ 52 * 2 ^ (-1022 : ℤ)
  else (1 + v.fraction / 2 ^ 52) * 2 ^ ((v.exponent : ℤ) - 1023)

/-- The rational number that a finite number stands for. -/
def value (v : Binary64) : ℚ := if v.isNegative then -v.magnitude else v.magnitude

theorem one_eq : one = 2 ^ 1074 := by decide +kernel

/-- The magnitude is counted in units of `2⁻¹⁰⁷⁴`. -/
theorem magnitude_eq (v : Binary64) : v.magnitude = v.units / one := by
  have counted : (v.units : ℚ) / one = v.significand * (2 : ℚ) ^ ((v.scale : ℤ) - 1074) := by
    have unit : (one : ℚ) = (2 : ℚ) ^ (1074 : ℤ) := by
      rw [one_eq, Nat.cast_pow, Nat.cast_ofNat, ← zpow_natCast, Nat.cast_ofNat]
    rw [zpow_sub₀ two_ne_zero, zpow_natCast, ← unit, units, Nat.pow_eq, Nat.cast_mul, Nat.cast_pow,
      Nat.cast_ofNat, mul_div_assoc]
  rw [counted, magnitude, significand, scale]
  split
  · rename_i smallest
    have place : ((v.exponent - 1 : ℕ) : ℤ) - 1074 = -1022 - 52 := by omega
    rw [place, zpow_sub₀ two_ne_zero]
    exact (mul_div_right_comm _ _ _).symm.trans (mul_div_assoc _ _ _)
  · have place : ((v.exponent - 1 : ℕ) : ℤ) - 1074 = (v.exponent - 1023) - 52 := by omega
    rw [place, zpow_sub₀ two_ne_zero _ 52]
    norm_num [fractionSpan]
    ring

theorem magnitude_nonneg (v : Binary64) : 0 ≤ v.magnitude := by
  rw [magnitude_eq]
  exact div_nonneg (Nat.cast_nonneg _) (Nat.cast_nonneg _)

theorem abs_value (v : Binary64) : |v.value| = v.magnitude := by
  unfold value
  split
  · rw [abs_neg, abs_of_nonneg v.magnitude_nonneg]
  · exact abs_of_nonneg v.magnitude_nonneg

theorem isNegative_of_value_neg {v : Binary64} (h : v.value < 0) : v.isNegative = true := by
  by_contra positive
  rw [value, if_neg positive] at h
  exact absurd h (not_lt.mpr v.magnitude_nonneg)

theorem magnitude_of_value_nonneg {v : Binary64} (sign : v.isNegative = true) (h : 0 ≤ v.value) :
    v.magnitude = 0 := by
  rw [value, if_pos sign, neg_nonneg] at h
  exact le_antisymm h v.magnitude_nonneg

/-! ### Integers of 64 bits -/

/-- The signed 64-bit integer that a number is brought to by a rounding of rational numbers. What
is outside the range goes to the end of it, and a NaN to zero. -/
def int64 (rounding : ℚ → ℤ) (v : Binary64) : ℤ :=
  if v.isNaN then 0
  else if v.isFinite then max (-2 ^ 63) (min (2 ^ 63 - 1) (rounding v.value))
  else if v.isNegative then -2 ^ 63 else 2 ^ 63 - 1

/-- The sign bit is the sign of the value, and of a zero it does not matter. -/
theorem keepSign_value {rounding : ℚ → ℤ} {size : ℕ} {v : Binary64} (zero : rounding 0 = 0)
    (h : rounding v.magnitude = size) :
    keepSign rounding v.value = if v.isNegative then -(size : ℤ) else size := by
  rw [keepSign, abs_value, h]
  by_cases negative : v.value < 0
  · rw [if_pos negative, if_pos (isNegative_of_value_neg negative)]
  · rw [if_neg negative]
    split
    · rename_i sign
      rw [magnitude_of_value_nonneg sign (not_lt.mp negative), zero] at h
      rw [← h, neg_zero]
    · rfl

/-- When a whole number is taken for the magnitude as a rounding says, the number is brought to the
integer that the rounding of its value gives. -/
theorem toInt64With_eq {rounding : ℚ → ℤ} {size : Binary64 → ℕ} {v : Binary64}
    (zero : rounding 0 = 0) (h : rounding v.magnitude = size v) :
    v.toInt64With size = v.int64 (keepSign rounding) := by
  unfold toInt64With int64
  split
  · rfl
  · split
    · rw [keepSign_value zero h, saturate]
      norm_num
    · cases v.isNegative <;> decide

theorem truncate_eq (v : Binary64) : v.truncate = v.int64 towardZero := by
  refine toInt64With_eq Int.floor_zero ?_
  rw [magnitude_eq, Rat.floor_natCast_div_natCast, whole]
  rfl

theorem round_eq (v : Binary64) : v.round = v.int64 halfAway := by
  refine toInt64With_eq (by norm_num) ?_
  have half : (v.units : ℚ) / one + 1 / 2 = (2 * v.units + one : ℕ) / (2 * one : ℕ) := by
    have : (one : ℚ) ≠ 0 := Nat.cast_ne_zero.mpr one_pos.ne'
    push_cast
    field_simp
  rw [magnitude_eq, half, Rat.floor_natCast_div_natCast, roundedWhole]
  rfl

end Binary64

end NodeGraph
