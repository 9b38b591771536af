/-!
# Primitives

The helper functions that a generated procedure may call, and the modules that it imports for them.
The order in which they are listed is the order of `all`.
-/

namespace NodeGraph

/-- A helper function of generated code. -/
inductive Primitive where
  | isin
  | icos
  | map
  | clamp
  | polarDistance
  | polarAngle
  | waveAdd
  | waveMultiply
deriving DecidableEq

namespace Primitive

/-- The name it is called by. -/
def name : Primitive → String
  | .isin => "isin"
  | .icos => "icos"
  | .map => "map"
  | .clamp => "clamp"
  | .polarDistance => "polarDistance"
  | .polarAngle => "polarAngle"
  | .waveAdd => "waveAdd"
  | .waveMultiply => "waveMultiply"

/-- All of them, in the order in which they are listed. -/
def all : List Primitive :=
  [.isin, .icos, .map, .clamp, .polarDistance, .polarAngle, .waveAdd, .waveMultiply]

/-- Whether it rests on the numeric library. -/
def needsNumeric : Primitive → Bool
  | .map | .clamp | .polarDistance | .polarAngle => true
  | _ => false

/-- A set of primitives in the order of `all`, each once. -/
def sorted (used : List Primitive) : List Primitive := all.filter fun p => used.contains p

/-- The modules to import for some primitives: their own always, the numeric library when one of
them rests on it. -/
def imports (used : List Primitive) : List String :=
  "primitives" :: if used.any needsNumeric then ["std/math"] else []

end Primitive

/-- Units in a full turn of a fixed-point angle. -/
def fullTurn : Nat := 3600

/-- Units in half a turn, where the square wave changes its sign. -/
def halfTurn : Nat := 1800

/-- The fixed-point amplitude of a wave. -/
def unitAmplitude : Nat := 1000

end NodeGraph
