import NodeGraph.Binary64.Shortest

/-!
# Number text

A `Layout` says how the shortest digits of a number are set out: which numbers are written
positionally and which with an exponent, whether a whole number still shows a fraction, how the
exponent is signed, which way an exact tie goes, and what stands for what is not finite. `write`
sets out a number by such a record; the formats themselves are values of it in the modules that
write numbers.
-/

namespace NodeGraph.Binary64

/-- How a number is set out. -/
structure Layout where
  /-- Whether a number is written without an exponent, by the power of ten of its first digit. -/
  positional : Int → Bool
  /-- What follows a whole number written positionally. -/
  wholeSuffix : String
  /-- What stands before an exponent that is not negative. -/
  exponentSign : String
  /-- Where an exact tie between two shortest decimals goes. -/
  tie : Tie
  /-- The text of a NaN. -/
  notANumber : String
  /-- The text of an infinity, by its sign. -/
  infinite : Bool → String

/-- Digits set out positionally, the first of them standing for `10 ^ leading`. -/
def positionalText (wholeSuffix : String) (digits : List Char) (leading : Int) : String :=
  if leading < 0 then
    "0." ++ String.ofList (List.replicate ((-leading).toNat - 1) '0' ++ digits)
  else
    let wholeLength := leading.toNat + 1
    if digits.length ≤ wholeLength then
      String.ofList (digits ++ List.replicate (wholeLength - digits.length) '0') ++ wholeSuffix
    else
      String.ofList (digits.take wholeLength) ++ "." ++ String.ofList (digits.drop wholeLength)

/-- Digits set out with one of them before the point, and an exponent. -/
def scientificText (exponentSign : String) (digits : List Char) (leading : Int) : String :=
  let point := if digits.length ≤ 1 then "" else "."
  let sign := if leading < 0 then "-" else exponentSign
  String.ofList (digits.take 1) ++ point ++ String.ofList (digits.drop 1) ++ "e" ++ sign ++
    toString leading.natAbs

namespace Layout

/-- The text of the magnitude of a finite number. -/
def writeMagnitude (layout : Layout) (v : Binary64) : String :=
  let decimal := v.shortest layout.tie
  let digits := Nat.toDigits 10 decimal.digits
  let leading := decimal.exponent + digits.length - 1
  if layout.positional leading then positionalText layout.wholeSuffix digits leading
  else scientificText layout.exponentSign digits leading

/-- The text of a number. -/
def write (layout : Layout) (v : Binary64) : String :=
  if v.isNaN then layout.notANumber
  else if v.isFinite then
    if v.isNegative then "-" ++ layout.writeMagnitude v else layout.writeMagnitude v
  else layout.infinite v.isNegative

end Layout

end NodeGraph.Binary64
