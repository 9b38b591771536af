import NodeGraph.Binary64.Rounding
import NodeGraph.Lowering.Expr
import NodeGraph.Node

/-!
# Lowering rules

What a node becomes, given an operand for each of its inputs. A parameter and an output with an
input need no statement: they stand for an operand that is already there. Every other node becomes a
statement. A node whose operator is unknown, or that has too few inputs for it, becomes one with a
stand-in value and a note of what was not handled; lowering never fails on the contents of a node.

The rules are the same for every type of operand.
-/

namespace NodeGraph

/-- What a node becomes. -/
inductive Lowered (α : Type) where
  /-- A parameter of the procedure. -/
  | parameter (name : String)
  /-- An operand that is already there. -/
  | same (operand : α)
  /-- A statement. -/
  | assign (expr : Expr α)
  /-- A statement with a stand-in value, and what was not handled. -/
  | standIn (expr : Expr α) (detail : String)
deriving DecidableEq

/-! ### Mathematical nodes -/

/-- The lower bound of a clamp that gives none. -/
def clampLow : Binary64 := .ofNat 0

/-- The upper bound of a clamp that gives none. -/
def clampHigh : Binary64 := .ofNat 1000

/-- How a domain adds. -/
def Domain.sum : Domain → Chain
  | .control => .plus
  | .visual => .waveAdd

/-- How a domain multiplies. -/
def Domain.product : Domain → Chain
  | .control => .times
  | .visual => .waveMultiply

/-- What a known operator computes, unless it has too few inputs or the wrong number of
parameters. -/
def MathOp.expr? {α : Type} (domain : Domain) (params : List Binary64) (args : List α) :
    MathOp → Option (Expr α)
  | .add =>
    match args with
    | first :: second :: rest => some (.chain domain.sum first second rest)
    | _ => none
  | .mul =>
    match args with
    | first :: second :: rest => some (.chain domain.product first second rest)
    | _ => none
  | .map =>
    match args, params with
    | operand :: _, [a, b, c, d] =>
      some (.map operand ⟨domain, a⟩ ⟨domain, b⟩ ⟨domain, c⟩ ⟨domain, d⟩)
    | _, _ => none
  | .clamp =>
    match args with
    | operand :: _ =>
      some (.clamp operand ⟨domain, params[0]?.getD clampLow⟩
        ⟨domain, params[1]?.getD clampHigh⟩)
    | [] => none
  | .abs => args.head?.map .abs

/-- What was not handled in a mathematical node. Of a known operator it tells the inputs too, and
of a map also the parameters. -/
def mathDetail (op : String) (inputs params : Nat) : String :=
  match MathOp.ofName? op with
  | some .map =>
    "math op: map (got " ++ toString inputs ++ " inputs, " ++ toString params ++ " params)"
  | some known => "math op: " ++ known.name ++ " (got " ++ toString inputs ++ " inputs)"
  | none => "math op: " ++ op

/-- What a mathematical node becomes; the stand-in value is its first input. -/
def loweredMath {α : Type} (domain : Domain) (op : String) (params : List Binary64)
    (args : List α) : Lowered α :=
  match (MathOp.ofName? op).bind (MathOp.expr? domain params args) with
  | some expr => .assign expr
  | none =>
    .standIn (match args with | operand :: _ => .copy operand | [] => .zero)
      (mathDetail op args.length params.length)

/-! ### Wave and polar nodes -/

/-- A phase in turns as a shift of the angle, from `0` up to a full turn. -/
def phaseShift (phase : Binary64) : Nat :=
  ((phase.mul (.ofNat fullTurn)).round % fullTurn).toNat

/-- What a wave node becomes. -/
def loweredWave {α : Type} (form : String) (phase : Binary64) (args : List α) : Lowered α :=
  match args with
  | [] => .standIn .zero ("wave input: " ++ form)
  | operand :: _ =>
    match Waveform.ofName? form with
    | some known => .assign (.wave known ⟨operand, phaseShift phase⟩)
    | none => .standIn .zero ("wave type: " ++ form)

/-- What a polar node becomes. With fewer than two inputs it takes the ambient point. -/
def loweredPolar {α : Type} (domain : Domain) (op : String) (centerX centerY : Binary64)
    (args : List α) : Lowered α :=
  match PolarOp.ofName? op with
  | none => .standIn .zero ("polar op: " ++ op)
  | some known =>
    let point :=
      match args with
      | x :: y :: _ => some (x, y)
      | _ => none
    .assign (.polar known point ⟨domain, centerX⟩ ⟨domain, centerY⟩)

/-! ### All nodes -/

/-- What a node becomes, given an operand for each of its inputs. -/
def Node.lowered {α : Type} (node : Node) (args : List α) : Lowered α :=
  match node.kind with
  | .input name => .parameter name
  | .constant value => .assign (.literal ⟨node.domain, value⟩)
  | .math op params => loweredMath node.domain op params args
  | .wave form phase => loweredWave form phase args
  | .polar op centerX centerY => loweredPolar node.domain op centerX centerY args
  | .valueOutput | .bufferOutput | .audioOutput =>
    match args with
    | operand :: _ => .same operand
    | [] => .assign .zero
  | .other tag => .standIn .zero ("node kind: " ++ tag)

end NodeGraph
