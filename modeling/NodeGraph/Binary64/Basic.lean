/-!
# Binary64 numbers

A double-precision number is held by its 64 bits: a sign, eleven exponent bits and fifty-two
fraction bits. Every finite one is a whole multiple of the smallest positive one, `2⁻¹⁰⁷⁴`, so its
magnitude is read as that multiple, a natural number (`units`), and every question about it, its
whole part, its fraction, its size, is a question about naturals. No runtime floating arithmetic is
used anywhere.

`agrees` is the numeric comparison, under which a NaN differs from itself and the two zeros are the
same; `DecidableEq` compares the bits.
-/

namespace NodeGraph

/-- A double-precision number, by its bits. -/
structure Binary64 where
  bits : UInt64
deriving DecidableEq

namespace Binary64

/-! ### The fields of the word -/

/-- The place above the fraction bits. -/
def fractionSpan : Nat := Nat.pow 2 52

/-- The place of the sign bit. -/
def signSpan : Nat := Nat.pow 2 63

/-- The fifty-two fraction bits. -/
def fraction (v : Binary64) : Nat := v.bits.toNat % fractionSpan

/-- The eleven exponent bits. -/
def exponent (v : Binary64) : Nat := v.bits.toNat / fractionSpan % 2048

/-- Whether the sign bit is set; it is for `-0.0` too. -/
def isNegative (v : Binary64) : Bool := decide (signSpan ≤ v.bits.toNat)

/-- An exponent of all ones marks what is not a finite number. -/
def isFinite (v : Binary64) : Bool := v.exponent != 2047

/-- Not a number: all exponent bits, and some fraction bit. -/
def isNaN (v : Binary64) : Bool := v.exponent == 2047 && v.fraction != 0

/-- The word of a sign and a magnitude, the sixty-three bits below the sign. -/
def ofMagnitude (negative : Bool) (magnitude : Nat) : Binary64 :=
  ⟨UInt64.ofNat (if negative then signSpan + magnitude else magnitude)⟩

/-- The magnitude bits of an infinity. -/
def infinityMagnitude : Nat := 2047 * fractionSpan

/-- A NaN. -/
def nan : Binary64 := ofMagnitude false (infinityMagnitude + fractionSpan / 2)

/-- The infinity of a sign. -/
def infinity (negative : Bool) : Binary64 := ofMagnitude negative infinityMagnitude

/-- The zero of a sign. -/
def zero (negative : Bool) : Binary64 := ofMagnitude negative 0

/-- The number with the other sign. -/
def neg (v : Binary64) : Binary64 := ⟨v.bits ^^^ 0x8000000000000000⟩

/-! ### The magnitude of a finite number -/

/-- The significand: the fraction bits under a leading one, which the smallest exponent lacks. -/
def significand (v : Binary64) : Nat :=
  if v.exponent = 0 then v.fraction else fractionSpan + v.fraction

/-- The power of two that the significand is multiplied by, counted from `2⁻¹⁰⁷⁴`. -/
def scale (v : Binary64) : Nat := v.exponent - 1

/-- How many units of `2⁻¹⁰⁷⁴` there are in one. -/
def one : Nat := Nat.pow 2 1074

/-- The magnitude of a finite number, in units of `2⁻¹⁰⁷⁴`. -/
def units (v : Binary64) : Nat := v.significand * Nat.pow 2 v.scale

/-- Either zero. -/
def isZero (v : Binary64) : Bool := v.isFinite && v.units == 0

/-- The whole part of the magnitude of a finite number. -/
def whole (v : Binary64) : Nat := v.units / one

/-- A finite number without a fraction. -/
def isWhole (v : Binary64) : Bool := v.isFinite && v.units % one == 0

/-- The magnitude of a finite number rounded to a whole number, a half away from zero. -/
def roundedWhole (v : Binary64) : Nat := (2 * v.units + one) / (2 * one)

/-- A number, not a NaN, whose magnitude is `n` or more. -/
def magnitudeAtLeast (n : Nat) (v : Binary64) : Bool :=
  if v.isFinite then decide (n * one ≤ v.units) else !v.isNaN

/-- Numeric equality: no NaN equals anything, and the two zeros are equal. -/
def agrees (v w : Binary64) : Bool :=
  !v.isNaN && !w.isNaN && (v == w || v.isZero && w.isZero)

/-! ### Whole numbers of 64 bits -/

/-- A whole number brought into the range of signed 64-bit integers. -/
def saturate (i : Int) : Int := max (-9223372036854775808) (min 9223372036854775807 i)

/-- The signed 64-bit integer that stands for a number, given the whole number taken for its
magnitude when it is finite. A NaN counts as zero, and what is too large stops at the end of the
range. -/
def toInt64With (magnitude : Binary64 → Nat) (v : Binary64) : Int :=
  if v.isNaN then 0
  else
    let size : Nat := if v.isFinite then magnitude v else 2 * signSpan
    saturate (if v.isNegative then -size else size)

/-- Truncated toward zero. -/
def truncate (v : Binary64) : Int := v.toInt64With whole

/-- Rounded to the nearest whole number, a half away from zero. -/
def round (v : Binary64) : Int := v.toInt64With roundedWhole

end Binary64

end NodeGraph
