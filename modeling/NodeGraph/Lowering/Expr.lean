import NodeGraph.Lowering.Literal
import NodeGraph.Operator
import NodeGraph.Primitive

/-!
# Right-hand sides

The right-hand side of a generated statement, over any kind of operand: over `Symbol` it has a text,
and over values it can be given a meaning. Each names at most one primitive (`Expr.primitive?`), the
one that its text calls.
-/

namespace NodeGraph

/-! ### Operands -/

/-- What a generated statement can refer to. -/
inductive Symbol where
  /-- A parameter of the procedure. -/
  | parameter (name : String)
  /-- The variable of the statement with a number. -/
  | var (index : Nat)
deriving DecidableEq

/-- The name of the variable of a statement. -/
def variableName (index : Nat) : String := "v" ++ toString index

/-- The text of a symbol. -/
def Symbol.text : Symbol → String
  | .parameter name => name
  | .var index => variableName index

/-! ### Expressions -/

/-- An operation that is repeated from left to right over two or more operands. -/
inductive Chain where
  | plus
  | times
  | waveAdd
  | waveMultiply
deriving DecidableEq

/-- An operand as an angle of one turn, after adding a shift to it. -/
structure Angle (α : Type) where
  operand : α
  shift : Nat
deriving DecidableEq

/-- A right-hand side over operands of a type. -/
inductive Expr (α : Type) where
  /-- The number zero. -/
  | zero
  /-- A number. -/
  | literal (value : Literal)
  /-- An operand as it is. -/
  | copy (operand : α)
  /-- An operation over two or more operands, from left to right. -/
  | chain (op : Chain) (first second : α) (rest : List α)
  /-- An operand carried from one range to another. -/
  | map (operand : α) (fromLow fromHigh toLow toHigh : Literal)
  /-- An operand kept between bounds. -/
  | clamp (operand : α) (low high : Literal)
  /-- The absolute value of an operand. -/
  | abs (operand : α)
  /-- A waveform at an angle. -/
  | wave (form : Waveform) (angle : Angle α)
  /-- A polar coordinate of a point about a centre; without a point it is the ambient one, given by
  the parameters `x` and `y`. -/
  | polar (op : PolarOp) (point : Option (α × α)) (centerX centerY : Literal)
deriving DecidableEq

/-! ### Text -/

/-- The text of an angle. A shift of zero is left out. -/
def Angle.text (angle : Angle Symbol) : String :=
  let turn := " mod " ++ toString fullTurn
  if angle.shift = 0 then angle.operand.text ++ turn
  else "(" ++ angle.operand.text ++ " + " ++ toString angle.shift ++ ")" ++ turn

/-- The primitive that an operation calls. -/
def Chain.primitive? : Chain → Option Primitive
  | .plus | .times => none
  | .waveAdd => some .waveAdd
  | .waveMultiply => some .waveMultiply

/-- The primitive that a waveform calls. -/
def Waveform.primitive? : Waveform → Option Primitive
  | .sin => some .isin
  | .cos => some .icos
  | .saw | .square => none

/-- The primitive that a polar operator calls. -/
def PolarOp.primitive : PolarOp → Primitive
  | .distance => .polarDistance
  | .angle => .polarAngle

/-- A call of a primitive. -/
def Primitive.call (p : Primitive) (arguments : List String) : String :=
  p.name ++ "(" ++ String.intercalate ", " arguments ++ ")"

/-- One step of an operation, from the text so far and the next operand. -/
def Chain.step (op : Chain) (sofar next : String) : String :=
  match op with
  | .plus => sofar ++ " + " ++ next
  | .times => sofar ++ " * " ++ next
  | .waveAdd => Primitive.waveAdd.call [sofar, next]
  | .waveMultiply => Primitive.waveMultiply.call [sofar, next]

/-- The text of a waveform at an angle. -/
def Waveform.text (form : Waveform) (angle : String) : String :=
  match form with
  | .sin => Primitive.isin.call [angle]
  | .cos => Primitive.icos.call [angle]
  | .saw => angle
  | .square =>
    "(if (" ++ angle ++ ") < " ++ toString halfTurn ++ ": " ++ toString unitAmplitude ++
      " else: -" ++ toString unitAmplitude ++ ")"

namespace Expr

/-- The primitive that a right-hand side calls. -/
def primitive? {α : Type} : Expr α → Option Primitive
  | .chain op _ _ _ => op.primitive?
  | .map .. => some .map
  | .clamp .. => some .clamp
  | .wave form _ => form.primitive?
  | .polar op _ _ _ => some op.primitive
  | .zero | .literal _ | .copy _ | .abs _ => none

/-- The text of a right-hand side. -/
def text : Expr Symbol → String
  | .zero => "0"
  | .literal value => value.text
  | .copy operand => operand.text
  | .chain op first second rest => (second :: rest).foldl (fun t s => op.step t s.text) first.text
  | .map operand fromLow fromHigh toLow toHigh =>
    Primitive.map.call [operand.text, fromLow.text, fromHigh.text, toLow.text, toHigh.text]
  | .clamp operand low high => Primitive.clamp.call [operand.text, low.text, high.text]
  | .abs operand => "abs(" ++ operand.text ++ ")"
  | .wave form angle => form.text angle.text
  | .polar op point centerX centerY =>
    let (x, y) :=
      match point with
      | some (x, y) => (x.text, y.text)
      | none => ("x", "y")
    op.primitive.call [x, y, centerX.text, centerY.text]

end Expr

end NodeGraph
