import NodeGraph.Binary64.Basic

/-!
# Rounded arithmetic

The result of an operation on finite numbers is the number nearest to the exact result, and of two
equally near the one with an even significand. `nearest` is that rule, once, on a quotient of
naturals; multiplication, division and the conversion of a whole number are exact fractions handed
to it.

The bits of a number grow with its magnitude, and a significand that rounds up to the next power of
two carries into the exponent, so the word is the significand added to its scale in the exponent's
place, cut off at infinity.
-/

namespace NodeGraph.Binary64

/-- The whole number nearest to `num / den`, of two the even one. -/
def roundDiv (num den : Nat) : Nat :=
  let quotient := num / den
  let twice := 2 * (num % den)
  if twice < den then quotient
  else if den < twice then quotient + 1
  else quotient + quotient % 2

/-- The number of a sign whose magnitude is nearest to `num / den` units. -/
def nearest (negative : Bool) (num den : Nat) : Binary64 :=
  let scale := Nat.log2 (num / den) - 52
  let magnitude := scale * fractionSpan + roundDiv num (den * Nat.pow 2 scale)
  ofMagnitude negative (min magnitude infinityMagnitude)

/-- The number nearest to a natural number. -/
def ofNat (n : Nat) : Binary64 := nearest false (n * one) 1

/-- The number nearest to an integer. -/
def ofInt (i : Int) : Binary64 := nearest (decide (i < 0)) (i.natAbs * one) 1

/-- The product. -/
def mul (v w : Binary64) : Binary64 :=
  let negative := v.isNegative != w.isNegative
  if v.isNaN || w.isNaN then nan
  else if v.isFinite && w.isFinite then nearest negative (v.units * w.units) one
  else if v.isZero || w.isZero then nan
  else infinity negative

/-- The quotient. -/
def div (v w : Binary64) : Binary64 :=
  let negative := v.isNegative != w.isNegative
  if v.isNaN || w.isNaN then nan
  else if v.isFinite && w.isFinite then
    if w.isZero then (if v.isZero then nan else infinity negative)
    else nearest negative (v.units * one) w.units
  else if w.isFinite then infinity negative
  else if v.isFinite then zero negative
  else nan

/-- The number nearest to a power of ten. -/
def tenToThe (n : Nat) : Binary64 := ofNat (Nat.pow 10 n)

end NodeGraph.Binary64
