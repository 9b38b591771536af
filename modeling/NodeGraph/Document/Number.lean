import NodeGraph.Binary64.Rounding
import NodeGraph.Document.Reader

/-!
# Numbers in a document

A number is first taken apart into its digits (`NumberText`) and then given a value. Whole numbers
that fit in 64 bits stay exact. Any other number is a float, and not always the nearest one: as many
digits as fit in 64 bits make the significand, which is rounded, and then multiplied or divided by a
rounded power of ten. A number beyond the largest float is refused; one below the smallest is zero.
-/

namespace NodeGraph.Document

/-! ### The digits of a number -/

/-- The parts of a number as it is written. -/
structure NumberText where
  negative : Bool
  /-- The digits before the point. -/
  whole : List Char
  /-- The digits after the point, if there is one. -/
  fraction : List Char
  /-- Whether there is a point or an exponent. -/
  isFloat : Bool
  /-- Whether the exponent is negative. -/
  exponentNegative : Bool
  /-- The digits of the exponent, if there is one. -/
  exponent : List Char
deriving DecidableEq

/-- The digits at the front of a text, and the rest of it. -/
def digits (text : List Char) : List Char × List Char :=
  (text.takeWhile Char.isDigit, text.dropWhile Char.isDigit)

/-- One digit or more; `ended` is told when the text ends before one. -/
def someDigits (ended : Malformed) : Reader (List Char) := fun text =>
  match digits text with
  | ([], []) => .error ended
  | ([], _) => .error .invalidNumber
  | (ds, rest) => .ok (ds, rest)

/-- The digits before the point: a single zero, or digits that do not start with one. -/
def wholeDigits (ended : Malformed) : Reader (List Char) := fun text => do
  let (ds, rest) ← someDigits ended text
  match ds with
  | '0' :: _ :: _ => throw .invalidNumber
  | _ => return (ds, rest)

/-- The digits after a point, when there is one. -/
def fractionDigits (ended : Malformed) : Reader (List Char)
  | '.' :: rest => someDigits ended rest
  | text => .ok ([], text)

/-- Whether the exponent starts with a minus sign, and what follows the sign. -/
def exponentSign : List Char → Bool × List Char
  | '-' :: rest => (true, rest)
  | '+' :: rest => (false, rest)
  | text => (false, text)

/-- The sign and digits of an exponent, when there is one. -/
def exponentDigits (ended : Malformed) : Reader (Bool × List Char)
  | [] => .ok ((false, []), [])
  | c :: rest =>
    if c = 'e' ∨ c = 'E' then do
      let (negative, rest) := exponentSign rest
      let (ds, rest) ← someDigits ended rest
      return ((negative, ds), rest)
    else .ok ((false, []), c :: rest)

/-- The parts of a number after its sign. -/
def numberParts (ended : Malformed) (negative : Bool) : Reader NumberText := fun text => do
  let (whole, rest) ← wholeDigits ended text
  let (fraction, rest) ← fractionDigits ended rest
  let ((exponentNegative, exponent), rest) ← exponentDigits ended rest
  let isFloat := !(fraction.isEmpty && exponent.isEmpty)
  return (⟨negative, whole, fraction, isFloat, exponentNegative, exponent⟩, rest)

/-! ### The value of a number -/

/-- A whole number, or a float. -/
inductive Number where
  | integer (value : Int)
  | float (value : Binary64)
deriving DecidableEq

/-- The float nearest to a number. -/
def Number.toBinary64 : Number → Binary64
  | .integer value => .ofInt value
  | .float value => value

/-- The value of a digit. -/
def digitValue (c : Char) : Nat := c.toNat - '0'.toNat

/-- The natural number that digits stand for. -/
def naturalOf (ds : List Char) : Nat := ds.foldl (fun n c => 10 * n + digitValue c) 0

/-- Add digits to a significand while it fits in 64 bits; the second number counts those that are
left out. -/
def gather : Nat → List Char → Nat × Nat
  | n, [] => (n, 0)
  | n, c :: rest =>
    if 10 * n + digitValue c < 18446744073709551616 then gather (10 * n + digitValue c) rest
    else (n, rest.length + 1)

/-- The greatest power of ten that is multiplied or divided by in one step. -/
def maxPower : Nat := 308

/-- A float multiplied by a power of ten. -/
def scaleUp (v : Binary64) (power : Nat) : Except Malformed Binary64 :=
  if power ≤ maxPower then
    let product := v.mul (.tenToThe power)
    if product.isFinite then .ok product else .error .numberOutOfRange
  else if v.isZero then .ok v
  else .error .numberOutOfRange

/-- A float divided by a power of ten, in steps of the greatest power. -/
def scaleDown : Nat → Binary64 → Nat → Binary64
  | 0, v, power => v.div (.tenToThe power)
  | steps + 1, v, power =>
    if power ≤ maxPower then v.div (.tenToThe power)
    else if v.isZero then v
    else scaleDown steps (v.div (.tenToThe maxPower)) (power - maxPower)

/-- The float of a significand and a power of ten. -/
def floatOf (negative : Bool) (significand : Nat) (power : Int) : Except Malformed Binary64 := do
  let v := Binary64.ofNat significand
  let magnitude ←
    if 0 ≤ power then scaleUp v power.toNat
    else
      let down := (-power).toNat
      pure (scaleDown (down / maxPower) v down)
  return if negative then magnitude.neg else magnitude

/-- The greatest written exponent that is counted with. -/
def maxExponent : Nat := 2147483647

/-- The value of a number. -/
def NumberText.value (t : NumberText) : Except Malformed Number := do
  let (significand, dropped) := gather 0 t.whole
  if t.isFloat || dropped != 0 then
    let (significand, left) := gather significand t.fraction
    let written := naturalOf t.exponent
    if written ≤ maxExponent then
      let exponent : Int := if t.exponentNegative then -written else written
      let shift : Int := (dropped : Int) - ((t.fraction.length - left : Nat) : Int)
      return .float (← floatOf t.negative significand (shift + exponent))
    else if t.exponentNegative || significand == 0 then return .float (.zero t.negative)
    else throw .numberOutOfRange
  else if !t.negative then return .integer significand
  else if significand = 0 ∨ 9223372036854775808 < significand then
    return .float (Binary64.ofNat significand).neg
  else return .integer (-significand)

/-- A number after its sign. -/
def number (negative : Bool) : Reader Number := fun text => do
  let (parts, rest) ← numberParts .endInValue negative text
  return (← parts.value, rest)

end NodeGraph.Document
