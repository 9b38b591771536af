import NodeGraph.Binary64.Basic

/-!
# The fewest digits that read back

A finite number is the nearest one to every real of an interval around it, whose ends belong to it
when its significand is even. Its shortest decimal is the one with the fewest digits inside that
interval, and of two with equally many the nearer one. `shortest` tries the grids of one digit, two
digits and so on: on each only the two points on either side of the number can be the nearest, and
the first grid with a point inside gives the answer. Seventeen digits always suffice.

Everything is compared in quarters of a unit and multiplied out, so no step is rounded.
-/

namespace NodeGraph

/-- The decimal number `digits · 10 ^ exponent`. -/
structure Decimal where
  digits : Nat
  exponent : Int
deriving DecidableEq

namespace Decimal

/-- How many decimal digits a natural number is written with. -/
def digitCount (n : Nat) : Nat := (Nat.toDigits 10 n).length

/-- Drop trailing zeros of `digits`, at most `fuel` of them. -/
def trimWithin : Nat → Nat → Int → Decimal
  | 0, digits, exponent => ⟨digits, exponent⟩
  | fuel + 1, digits, exponent =>
    if digits != 0 && digits % 10 == 0 then trimWithin fuel (digits / 10) (exponent + 1)
    else ⟨digits, exponent⟩

/-- The same number, with no trailing zero among its digits. -/
def trim (d : Decimal) : Decimal := trimWithin (digitCount d.digits) d.digits d.exponent

end Decimal

namespace Binary64

/-- Where to go from a number exactly half way between two decimals of a grid. -/
inductive Tie where
  /-- Away from zero. -/
  | up
  /-- To the even last digit. -/
  | even
deriving DecidableEq

/-- The lower end of the interval of reals nearest to a number, in quarter units. Below a power of
two the numbers stand twice as close. -/
def lowerEnd (v : Binary64) : Nat :=
  let gap := Nat.pow 2 v.scale
  4 * v.units - if v.significand = fractionSpan ∧ 0 < v.scale then gap else 2 * gap

/-- The upper end of that interval, in quarter units. -/
def upperEnd (v : Binary64) : Nat := 4 * v.units + 2 * Nat.pow 2 v.scale

/-- Whether the fraction `num / den`, in quarter units, reads back as the number: it is inside the
interval, or on an end of it and the significand is even. -/
def readsBack (v : Binary64) (num den : Nat) : Bool :=
  if v.significand % 2 = 0 then decide (v.lowerEnd * den ≤ num ∧ num ≤ v.upperEnd * den)
  else decide (v.lowerEnd * den < num ∧ num < v.upperEnd * den)

/-- The multiple of `10 ^ exponent` that is nearest to a number among those that read back. -/
def onGrid? (tie : Tie) (v : Binary64) (exponent : Int) : Option Decimal :=
  let step := Nat.pow 10 exponent.toNat * (4 * one)
  let den := Nat.pow 10 (-exponent).toNat
  let exact := 4 * v.units * den
  let below := exact / step
  let twice := 2 * (exact % step)
  let takeUpper :=
    if twice < step then false
    else if step < twice then true
    else match tie with
      | .up => true
      | .even => below % 2 == 1
  match v.readsBack (below * step) den, v.readsBack ((below + 1) * step) den with
  | true, true => some ⟨if takeUpper then below + 1 else below, exponent⟩
  | true, false => some ⟨below, exponent⟩
  | false, true => some ⟨below + 1, exponent⟩
  | false, false => none

/-- The power of ten of the first digit of a number that is not zero. -/
def leadingExponent (v : Binary64) : Int :=
  if one ≤ v.units then (Decimal.digitCount v.whole : Int) - 1
  else -(Decimal.digitCount ((one - 1) / v.units) : Int)

/-- **The shortest decimal** of the magnitude of a finite number. -/
def shortest (tie : Tie) (v : Binary64) : Decimal :=
  if v.units = 0 then ⟨0, 0⟩
  else
    match (List.range 17).findSome? fun k : Nat => v.onGrid? tie (v.leadingExponent - k) with
    | some d => d.trim
    | none => ⟨0, 0⟩

end Binary64

end NodeGraph
