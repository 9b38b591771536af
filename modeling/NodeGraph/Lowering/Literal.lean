import NodeGraph.Binary64.Layout
import NodeGraph.Listing

/-!
# Number literals

A number in generated code is written in the way of its domain. A visual number is the integer left
when the fraction is cut off. A control number is always a float literal: a whole one below `10^15`
keeps a `.0`, a larger one has an exponent, and any other shows its digits after a point.
-/

namespace NodeGraph

/-- A number to be written in the way of a domain. -/
structure Literal where
  domain : Domain
  value : Binary64
deriving DecidableEq

namespace Literal

/-- Large control numbers: one digit before the point, and an exponent without a plus sign. -/
def large : Binary64.Layout := { Listing.number with positional := fun _ => false }

/-- The text of a control number. -/
def controlText (v : Binary64) : String :=
  if v.magnitudeAtLeast (Nat.pow 10 15) then large.write v
  else if v.isWhole then (if v.isNegative then "-" else "") ++ toString v.whole ++ ".0"
  else Listing.number.write v

/-- The text of a literal. -/
def text (l : Literal) : String :=
  match l.domain with
  | .visual => toString l.value.truncate
  | .control => controlText l.value

end Literal

end NodeGraph
