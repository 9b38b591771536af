/-!
# Operators

The operators that a mathematical, wave or polar node can name. The name in a node is any text; one
that is not listed here has no meaning, and its node is given a stand-in value.
-/

namespace NodeGraph

/-! ### Arithmetic -/

/-- The operators of mathematical nodes. -/
inductive MathOp where
  /-- The sum of two or more inputs. -/
  | add
  /-- The product of two or more inputs. -/
  | mul
  /-- An input carried from one range to another. -/
  | map
  /-- An input kept between two bounds. -/
  | clamp
  /-- The absolute value of an input. -/
  | abs
deriving DecidableEq

namespace MathOp

/-- The name of an operator. -/
def name : MathOp → String
  | .add => "add"
  | .mul => "mul"
  | .map => "map"
  | .clamp => "clamp"
  | .abs => "abs"

/-- All of them. -/
def all : List MathOp := [.add, .mul, .map, .clamp, .abs]

/-- The operator of a name. -/
def ofName? (name : String) : Option MathOp := all.find? fun op => op.name == name

end MathOp

/-! ### Waveforms -/

/-- The waveforms of wave nodes. -/
inductive Waveform where
  | sin
  | cos
  /-- The angle itself. -/
  | saw
  /-- The full amplitude on the first half turn, and its negative on the second. -/
  | square
deriving DecidableEq

namespace Waveform

/-- The name of a waveform. -/
def name : Waveform → String
  | .sin => "sin"
  | .cos => "cos"
  | .saw => "saw"
  | .square => "square"

/-- All of them. -/
def all : List Waveform := [.sin, .cos, .saw, .square]

/-- The waveform of a name. -/
def ofName? (name : String) : Option Waveform := all.find? fun form => form.name == name

end Waveform

/-! ### Polar coordinates -/

/-- The operators of polar nodes. -/
inductive PolarOp where
  /-- The distance of a point from the centre. -/
  | distance
  /-- The angle of a point about the centre. -/
  | angle
deriving DecidableEq

namespace PolarOp

/-- The name of an operator. -/
def name : PolarOp → String
  | .distance => "distance"
  | .angle => "angle"

/-- All of them. -/
def all : List PolarOp := [.distance, .angle]

/-- The operator of a name. -/
def ofName? (name : String) : Option PolarOp := all.find? fun op => op.name == name

end PolarOp

end NodeGraph
